import UniversityHelper.AutoSignin

/-! `get_active_tasks` of the sign-in client while requests to the platform fail: the activity list
of a course is asked for under a guard, the details of an activity are not. -/
namespace UniversityHelper.ActiveTasks
open AutoSignin

inductive Failure
  | sessionExpired
  | request (message : String)

/-- An entry of an activity list, with what the request for its details would answer. -/
structure Listed where
  activity : Activity
  detail : Except Failure ℤ

/-- A course, with the answer to the request for its activity list. -/
structure Listing where
  course : Course
  activities : Except Failure (List Listed)

structure Filters where
  courseFilters : List String
  classFilters : List String
  activeIds : List String
  expectedType : String

def Filters.selects (filters : Filters) (course : Course) : Bool :=
  (filters.courseFilters = [] ||
      filters.courseFilters.any fun f => matchesFilter f course.courseId course.classId) &&
    (asFilterSet filters.classFilters = [] || course.classId ∈ asFilterSet filters.classFilters)

/-- The checks of an activity before its type is resolved. -/
def Filters.considers (filters : Filters) (activity : Activity) : Bool :=
  activity.status = 1 && activity.otherId ∈ [0, 2, 3, 4, 5] && activity.id ≠ "" &&
    (asFilterSet filters.activeIds = [] || activity.id ∈ asFilterSet filters.activeIds)

def Filters.expects (filters : Filters) (signType : AutoSignin.SignType) : Bool :=
  filters.expectedType = "all" || signType.text = filters.expectedType

def resolveSignType (listed : Listed) : Except Failure AutoSignin.SignType :=
  if listed.activity.otherId = 3 then .ok .gesture
  else if listed.activity.otherId = 5 then .ok .code
  else if listed.activity.otherId = 4 then .ok .location
  else if listed.activity.otherId = 2 then .ok .qrcode
  else if listed.activity.otherId = 0 then
    if listed.activity.ifphoto = 1 then .ok .photo
    else listed.detail.map fun ifphoto => if ifphoto = 1 then .photo else .normal
  else .ok .unknown

def activeTask (filters : Filters) (course : Course) (listed : Listed) : Except Failure (Option Task) :=
  if filters.considers listed.activity = true then
    (resolveSignType listed).map fun signType =>
      if filters.expects signType = true then some (activityToTask course listed.activity signType)
      else none
  else .ok none

/-- The inner loop. -/
def courseTasks (filters : Filters) (course : Course) : List Listed → Except Failure (List Task)
  | [] => .ok []
  | listed :: rest =>
    match activeTask filters course listed with
    | .error failure => .error failure
    | .ok task => (courseTasks filters course rest).map (task.toList ++ ·)

structure Scan where
  tasks : List Task
  attempted : ℕ
  failures : List String

/-- The loop over the courses. -/
def scan (filters : Filters) (s : Scan) : List Listing → Except Failure Scan
  | [] => .ok s
  | listing :: rest =>
    if filters.selects listing.course = false then scan filters s rest
    else
      match listing.activities with
      | .error .sessionExpired => .error .sessionExpired
      | .error (.request message) =>
        scan filters { s with
          attempted := s.attempted + 1
          failures := s.failures ++ [message] } rest
      | .ok activities =>
        match courseTasks filters listing.course activities with
        | .error failure => .error failure
        | .ok tasks =>
          scan filters { s with
            attempted := s.attempted + 1
            tasks := s.tasks ++ tasks } rest

def getActiveTasks (filters : Filters) (listings : List Listing) : Except Failure (List Task) :=
  match scan filters ⟨[], 0, []⟩ listings with
  | .error failure => .error failure
  | .ok s =>
    match s.failures, s.tasks with
    | first :: _, [] =>
      .error (.request (toString s.failures.length ++ "/" ++ toString s.attempted ++
        " activity-list request(s) failed; cannot determine active sign-in tasks: " ++ first))
    | _, _ => .ok s.tasks

/-- The sign-ins of a course, if all requests made for it succeed. -/
def Listing.check (filters : Filters) (listing : Listing) : Except Failure (List Task) :=
  match listing.activities with
  | .error failure => .error failure
  | .ok activities => courseTasks filters listing.course activities

def selected (filters : Filters) (listings : List Listing) : List Listing :=
  listings.filter fun listing => filters.selects listing.course

/-- The sign-ins of the selected courses whose own requests all succeed, in course order. -/
def healthyTasks (filters : Filters) (listings : List Listing) : List Task :=
  (selected filters listings).flatMap fun listing => (listing.check filters).toOption.getD []

/-- No sign-in of a healthy course is missing, and an empty answer says that all were checked. -/
def Reports (filters : Filters) (listings : List Listing) : Prop :=
  match getActiveTasks filters listings with
  | .ok tasks => (healthyTasks filters listings).Sublist tasks ∧
      (tasks = [] → ∀ listing ∈ selected filters listings, ∃ found, listing.check filters = .ok found)
  | .error _ => healthyTasks filters listings = []

/-- The details of an activity are asked for. -/
def Filters.asksDetail (filters : Filters) (activity : Activity) : Bool :=
  filters.considers activity && activity.otherId = 0 && activity.ifphoto ≠ 1

/-- No request for the details of an activity fails. -/
def DetailsAnswered (filters : Filters) (listings : List Listing) : Prop :=
  ∀ listing ∈ selected filters listings, ∀ activities, listing.activities = .ok activities →
    ∀ listed ∈ activities, filters.asksDetail listed.activity = true →
      ∃ ifphoto, listed.detail = .ok ifphoto

variable {filters : Filters}

theorem resolveSignType_ok {listed : Listed} (h : ∃ ifphoto, listed.detail = .ok ifphoto) :
    ∃ signType, resolveSignType listed = .ok signType := by
  obtain ⟨ifphoto, hdetail⟩ := h
  unfold resolveSignType
  split_ifs
  · exact ⟨_, rfl⟩
  · exact ⟨_, rfl⟩
  · exact ⟨_, rfl⟩
  · exact ⟨_, rfl⟩
  · exact ⟨_, rfl⟩
  · rw [hdetail]
    exact ⟨_, rfl⟩
  · exact ⟨_, rfl⟩

/-- Only the details of an activity can fail, and only where they are asked for. -/
theorem activeTask_ok_iff {course : Course} {listed : Listed} :
    (∃ task, activeTask filters course listed = .ok task) ↔
      (filters.asksDetail listed.activity = true → ∃ ifphoto, listed.detail = .ok ifphoto) := by
  by_cases hconsidered : filters.considers listed.activity = true
  · have hmap : (∃ task, activeTask filters course listed = .ok task) ↔
        ∃ signType, resolveSignType listed = .ok signType := by
      rw [activeTask, if_pos hconsidered]
      cases resolveSignType listed with
      | error failure => simp [Except.map]
      | ok signType => simp [Except.map]
    rw [hmap]
    constructor
    · rintro ⟨signType, hresolved⟩ hasks
      obtain ⟨⟨-, hnormal⟩, hphoto⟩ : (filters.considers listed.activity = true ∧
          listed.activity.otherId = 0) ∧ listed.activity.ifphoto ≠ 1 := by
        simpa [Filters.asksDetail] using hasks
      cases hdetail : listed.detail with
      | ok ifphoto => exact ⟨ifphoto, rfl⟩
      | error failure => simp [resolveSignType, hnormal, hphoto, hdetail, Except.map] at hresolved
    · intro hanswered
      by_cases hasks : filters.asksDetail listed.activity = true
      · exact resolveSignType_ok (hanswered hasks)
      · have hother : listed.activity.otherId ≠ 0 ∨ listed.activity.ifphoto = 1 := by
          by_contra hboth
          apply hasks
          simp_all [Filters.asksDetail]
        unfold resolveSignType
        rcases hother with hne | hphoto
        · split_ifs
          all_goals exact ⟨_, rfl⟩
        · split_ifs
          all_goals exact ⟨_, rfl⟩
  · have hasks : filters.asksDetail listed.activity ≠ true := by
      simp [Filters.asksDetail, Bool.eq_false_of_not_eq_true hconsidered]
    rw [activeTask, if_neg hconsidered]
    exact ⟨fun _ h => absurd h hasks, fun _ => ⟨none, rfl⟩⟩

theorem activeTask_eq_some {course : Course} {listed : Listed} {task : Task} :
    activeTask filters course listed = .ok (some task) ↔
      filters.considers listed.activity = true ∧ ∃ signType, resolveSignType listed = .ok signType ∧
        filters.expects signType = true ∧ task = activityToTask course listed.activity signType := by
  by_cases hconsidered : filters.considers listed.activity = true
  · rw [activeTask, if_pos hconsidered]
    cases resolveSignType listed with
    | error failure => simp [Except.map]
    | ok signType =>
      by_cases hexpected : filters.expects signType = true
      · have hsome : (some (activityToTask course listed.activity signType) = some task) ↔
            task = activityToTask course listed.activity signType := by
          rw [Option.some_inj, eq_comm]
        simp [Except.map, hconsidered, hexpected, hsome]
      · simp [Except.map, hexpected]
  · rw [activeTask, if_neg hconsidered]
    simp [hconsidered]

theorem courseTasks_ok_iff {course : Course} (activities : List Listed) :
    (∃ tasks, courseTasks filters course activities = .ok tasks) ↔
      ∀ listed ∈ activities, filters.asksDetail listed.activity = true →
        ∃ ifphoto, listed.detail = .ok ifphoto := by
  induction activities with
  | nil => simp [courseTasks]
  | cons listed rest ih =>
    have hfirst : (∃ task, activeTask filters course listed = .ok task) ↔ _ := activeTask_ok_iff
    rw [List.forall_mem_cons, ← hfirst, ← ih, courseTasks]
    cases activeTask filters course listed with
    | error failure => simp
    | ok task =>
      cases courseTasks filters course rest with
      | error failure => simp [Except.map]
      | ok tasks => simp [Except.map]

/-- The loop does not stop at a course. -/
def Listing.Answered (filters : Filters) (listing : Listing) : Prop :=
  ∀ activities, listing.activities = .ok activities →
    ∃ tasks, courseTasks filters listing.course activities = .ok tasks

theorem detailsAnswered_iff (listings : List Listing) :
    DetailsAnswered filters listings ↔
      ∀ listing ∈ selected filters listings, listing.Answered filters := by
  simp only [DetailsAnswered, Listing.Answered, courseTasks_ok_iff]

theorem selected_cons (listing : Listing) (rest : List Listing) :
    selected filters (listing :: rest) =
      if filters.selects listing.course = true then listing :: selected filters rest
      else selected filters rest := List.filter_cons

/-- The text of a failing request for an activity list. -/
def Listing.failure (listing : Listing) : Option String :=
  match listing.activities with
  | .error (.request message) => some message
  | _ => none

/-- The loop to its end: the sign-ins of the healthy courses, and the failures of the others. -/
theorem scan_of_answered (listings : List Listing)
    (live : ∀ listing ∈ listings, listing.activities ≠ .error .sessionExpired)
    (answered : ∀ listing ∈ selected filters listings, listing.Answered filters) (s : Scan) :
    ∃ attempted, scan filters s listings = .ok
      ⟨s.tasks ++ healthyTasks filters listings, attempted,
        s.failures ++ (selected filters listings).filterMap Listing.failure⟩ := by
  induction listings generalizing s with
  | nil => exact ⟨s.attempted, by simp [scan, healthyTasks, selected]⟩
  | cons listing rest ih =>
    obtain ⟨hlive, hrest⟩ := List.forall_mem_cons.mp live
    by_cases hselected : filters.selects listing.course = true
    · rw [selected_cons, if_pos hselected] at answered
      obtain ⟨hfirst, hothers⟩ := List.forall_mem_cons.mp answered
      rw [scan, if_neg (by simp [hselected]), healthyTasks, selected_cons, if_pos hselected,
        List.flatMap_cons]
      cases hactivities : listing.activities with
      | error failure =>
        cases failure with
        | sessionExpired => exact absurd hactivities hlive
        | request message =>
          have hnothing : (listing.check filters).toOption.getD [] = [] := by
            simp [Listing.check, hactivities, Except.toOption]
          obtain ⟨attempted, hscan⟩ := ih hrest hothers { s with
            attempted := s.attempted + 1
            failures := s.failures ++ [message] }
          refine ⟨attempted, ?_⟩
          dsimp only
          rw [hscan, hnothing, List.filterMap_cons_some (by simp [Listing.failure, hactivities]; rfl)]
          simp [healthyTasks]
      | ok activities =>
        obtain ⟨tasks, htasks⟩ := hfirst activities hactivities
        have hfound : (listing.check filters).toOption.getD [] = tasks := by
          simp [Listing.check, hactivities, htasks, Except.toOption]
        obtain ⟨attempted, hscan⟩ := ih hrest hothers { s with
          attempted := s.attempted + 1
          tasks := s.tasks ++ tasks }
        refine ⟨attempted, ?_⟩
        dsimp only
        rw [htasks]
        dsimp only
        rw [hscan, hfound, List.filterMap_cons_none (by simp [Listing.failure, hactivities])]
        simp [healthyTasks]
    · rw [selected_cons, if_neg hselected] at answered
      rw [scan, if_pos (by simpa using hselected), healthyTasks, selected_cons, if_neg hselected]
      exact ih hrest answered s

/-- The loop stops at the first request for details that fails. -/
theorem scan_of_unanswered (listings : List Listing)
    (unanswered : ¬ ∀ listing ∈ selected filters listings, listing.Answered filters) (s : Scan) :
    ∃ failure, scan filters s listings = .error failure := by
  induction listings generalizing s with
  | nil => simp [selected] at unanswered
  | cons listing rest ih =>
    by_cases hselected : filters.selects listing.course = true
    · rw [selected_cons, if_pos hselected, List.forall_mem_cons, not_and_or] at unanswered
      rw [scan, if_neg (by simp [hselected])]
      cases hactivities : listing.activities with
      | error failure =>
        have hfirst : listing.Answered filters := by
          intro activities hok
          rw [hactivities] at hok
          cases hok
        cases failure with
        | sessionExpired => exact ⟨_, rfl⟩
        | request message => exact ih (unanswered.resolve_left (not_not.mpr hfirst)) _
      | ok activities =>
        dsimp only
        cases htasks : courseTasks filters listing.course activities with
        | error failure => exact ⟨failure, rfl⟩
        | ok tasks =>
          have hfirst : listing.Answered filters := by
            intro others hok
            rw [hactivities] at hok
            cases hok
            exact ⟨tasks, htasks⟩
          exact ih (unanswered.resolve_left (not_not.mpr hfirst)) _
    · rw [selected_cons, if_neg hselected] at unanswered
      rw [scan, if_pos (by simpa using hselected)]
      exact ih unanswered s

/-- A course without a failure was checked. -/
theorem checked_of_no_failure {listing : Listing}
    (live : listing.activities ≠ .error .sessionExpired) (answered : listing.Answered filters)
    (none : listing.failure = none) : ∃ found, listing.check filters = .ok found := by
  unfold Listing.check
  cases hactivities : listing.activities with
  | error failure =>
    cases failure with
    | sessionExpired => exact absurd hactivities live
    | request message => simp [Listing.failure, hactivities] at none
  | ok activities => exact answered activities hactivities

/-- As long as no session has expired, the answer is right if and only if no request for the details
of an activity fails, or no healthy course has a sign-in that could be lost. -/
theorem reports_iff (filters : Filters) (listings : List Listing)
    (live : ∀ listing ∈ listings, listing.activities ≠ .error .sessionExpired) :
    Reports filters listings ↔
      DetailsAnswered filters listings ∨ healthyTasks filters listings = [] := by
  by_cases hanswered : DetailsAnswered filters listings
  · have hcourses := (detailsAnswered_iff listings).mp hanswered
    obtain ⟨attempted, hscan⟩ := scan_of_answered listings live hcourses ⟨[], 0, []⟩
    simp only [List.nil_append] at hscan
    refine ⟨fun _ => .inl hanswered, fun _ => ?_⟩
    rw [Reports, getActiveTasks, hscan]
    dsimp only
    cases hfailures : (selected filters listings).filterMap Listing.failure with
    | nil =>
      refine ⟨List.Sublist.refl _, fun _ listing hmem => ?_⟩
      have hselected := (List.mem_filter.mp hmem).1
      exact checked_of_no_failure (live listing hselected) (hcourses listing hmem)
        (List.filterMap_eq_nil_iff.mp hfailures listing hmem)
    | cons first others =>
      cases htasks : healthyTasks filters listings with
      | nil => rfl
      | cons task tasks => exact ⟨List.Sublist.refl _, fun hnil => by cases hnil⟩
  · obtain ⟨failure, hscan⟩ :=
      scan_of_unanswered listings (fun h => hanswered ((detailsAnswered_iff listings).mpr h)) ⟨[], 0, []⟩
    have hreports : Reports filters listings ↔ healthyTasks filters listings = [] := by
      rw [Reports, getActiveTasks, hscan]
    rw [hreports]
    exact ⟨.inr, fun h => h.resolve_left hanswered⟩

/-- The answers of a platform that fails no request. -/
def answers (upstream : Upstream) : List Listing :=
  upstream.courses.map fun course =>
    ⟨course, .ok ((upstream.activityList course.courseId course.classId).map fun activity =>
      ⟨activity, .ok (upstream.activeInfo activity.id)⟩)⟩

theorem considers_iff (activity : Activity) :
    filters.considers activity = true ↔
      ¬ activity.status ≠ 1 ∧ ¬ activity.otherId ∉ [0, 2, 3, 4, 5] ∧ ¬ activity.id = "" ∧
        ¬ (asFilterSet filters.activeIds ≠ [] ∧ activity.id ∉ asFilterSet filters.activeIds) := by
  simp only [Filters.considers, Bool.and_eq_true, Bool.or_eq_true, decide_eq_true_eq, not_not,
    not_and_or, and_assoc]

theorem activeTask_answered (upstream : Upstream) (filters : Filters) (course : Course)
    (activity : Activity) :
    activeTask filters course ⟨activity, .ok (upstream.activeInfo activity.id)⟩ =
      .ok (AutoSignin.activeTask upstream (asFilterSet filters.activeIds) filters.expectedType course
        activity) := by
  have htype : resolveSignType ⟨activity, .ok (upstream.activeInfo activity.id)⟩ =
      .ok (AutoSignin.resolveSignType upstream activity activity.id) := by
    unfold resolveSignType AutoSignin.resolveSignType
    split_ifs <;> simp_all [Except.map]
  by_cases hconsidered : filters.considers activity = true
  · obtain ⟨hstatus, hother, hid, hactive⟩ := (considers_iff activity).mp hconsidered
    rw [activeTask, if_pos hconsidered, htype, AutoSignin.activeTask, if_neg hstatus, if_neg hother,
      if_neg hid, if_neg hactive]
    by_cases hexpected : filters.expects (AutoSignin.resolveSignType upstream activity activity.id) = true
    · have hpasses : ¬ (filters.expectedType ≠ "all" ∧
          (AutoSignin.resolveSignType upstream activity activity.id).text ≠ filters.expectedType) := by
        simpa [Filters.expects, or_iff_not_imp_left] using hexpected
      simp only [Except.map, if_pos hexpected, if_neg hpasses]
    · have hfails : filters.expectedType ≠ "all" ∧
          (AutoSignin.resolveSignType upstream activity activity.id).text ≠ filters.expectedType := by
        simpa [Filters.expects] using hexpected
      simp only [Except.map, if_neg hexpected, if_pos hfails]
  · rw [activeTask, if_neg hconsidered, AutoSignin.activeTask]
    rw [considers_iff] at hconsidered
    split_ifs with hstatus hother hid hactive
    · rfl
    · rfl
    · rfl
    · exact absurd ⟨hstatus, not_not.mpr hother, hid, hactive⟩ hconsidered
    · rfl

theorem courseTasks_answered (upstream : Upstream) (filters : Filters) (course : Course)
    (activities : List Activity) :
    courseTasks filters course
        (activities.map fun activity => ⟨activity, .ok (upstream.activeInfo activity.id)⟩) =
      .ok (activities.filterMap
        (AutoSignin.activeTask upstream (asFilterSet filters.activeIds) filters.expectedType
          course)) := by
  induction activities with
  | nil => rfl
  | cons activity rest ih =>
    rw [List.map_cons, courseTasks, activeTask_answered, List.filterMap_cons]
    dsimp only
    rw [ih]
    cases AutoSignin.activeTask upstream (asFilterSet filters.activeIds) filters.expectedType course
      activity with
    | none => rfl
    | some task => rfl

/-- Without failures, the answer is the one of `AutoSignin`. -/
theorem getActiveTasks_answers (upstream : Upstream) (filters : Filters) :
    getActiveTasks filters (answers upstream) =
      .ok (AutoSignin.getActiveTasks upstream filters.courseFilters filters.classFilters
        filters.activeIds filters.expectedType) := by
  have hchecked : ∀ listing ∈ answers upstream, listing.activities ≠ .error .sessionExpired ∧
      listing.Answered filters ∧ listing.failure = none := by
    intro listing hmem
    obtain ⟨course, -, rfl⟩ := List.mem_map.mp hmem
    refine ⟨by simp, ?_, rfl⟩
    rintro activities ⟨⟩
    exact ⟨_, courseTasks_answered upstream filters course _⟩
  obtain ⟨attempted, hscan⟩ := scan_of_answered (answers upstream)
    (fun listing hmem => (hchecked listing hmem).1)
    (fun listing hmem => (hchecked listing (List.mem_filter.mp hmem).1).2.1) ⟨[], 0, []⟩
  have hnone : (selected filters (answers upstream)).filterMap Listing.failure = [] := by
    rw [List.filterMap_eq_nil_iff]
    intro listing hmem
    exact (hchecked listing (List.mem_filter.mp hmem).1).2.2
  have htasks : healthyTasks filters (answers upstream) =
      AutoSignin.getActiveTasks upstream filters.courseFilters filters.classFilters filters.activeIds
        filters.expectedType := by
    unfold healthyTasks selected answers AutoSignin.getActiveTasks
    induction upstream.courses with
    | nil => rfl
    | cons course rest ih =>
      rw [List.map_cons, List.filter_cons, List.flatMap_cons, ← ih]
      dsimp only
      by_cases hcourse : filters.courseFilters ≠ [] ∧ (filters.courseFilters.any fun f =>
          matchesFilter f course.courseId course.classId) = false
      · rw [if_pos hcourse, if_neg (by simp [Filters.selects, hcourse])]
        rfl
      · by_cases hclass : asFilterSet filters.classFilters ≠ [] ∧
            course.classId ∉ asFilterSet filters.classFilters
        · rw [if_neg hcourse, if_pos hclass, if_neg (by simp [Filters.selects, hclass])]
          rfl
        · have hselected : filters.selects course = true := by
            rw [not_and_or, not_not] at hcourse hclass
            simp only [Filters.selects, Bool.and_eq_true, Bool.or_eq_true, decide_eq_true_eq]
            exact ⟨hcourse.imp_right Bool.eq_true_of_not_eq_false, hclass.imp_right not_not.mp⟩
          rw [if_neg hcourse, if_neg hclass, if_pos hselected, List.flatMap_cons, Listing.check]
          dsimp only
          rw [courseTasks_answered]
          rfl
  rw [getActiveTasks, hscan, hnone, htasks]
  rfl

def mathematics : Course where
  courseId := "205"
  classId := "9"
  courseName := "高等数学"
  courseId_stripped := by decide
  classId_stripped := by decide
  courseId_ne := by decide
  classId_ne := by decide

def physics : Course where
  courseId := "206"
  classId := "4"
  courseName := "大学物理"
  courseId_stripped := by decide
  classId_stripped := by decide
  courseId_ne := by decide
  classId_ne := by decide

def noFilters : Filters := ⟨[], [], [], "all"⟩

def timeout : Failure := .request "Read timed out."

/-- A location sign-in in the first course, an ordinary one in the second. -/
def twoCourses (list : Except Failure (List Listed)) (detail : Except Failure ℤ) : List Listing :=
  [⟨mathematics, list⟩, ⟨physics, .ok [⟨⟨"72", 1, 0, 0⟩, detail⟩]⟩]

theorem failing_list_reported : Reports noFilters (twoCourses (.error timeout) (.ok 0)) := by
  have hlive : ∀ listing ∈ twoCourses (.error timeout) (.ok 0),
      listing.activities ≠ .error .sessionExpired := by
    simp [twoCourses, timeout]
  refine (reports_iff noFilters (twoCourses (.error timeout) (.ok 0)) hlive).mpr (.inl ?_)
  intro listing hmem activities hactivities listed hlisted _
  have hlisting : listing ∈ twoCourses (.error timeout) (.ok 0) := (List.mem_filter.mp hmem).1
  simp only [twoCourses, List.mem_cons, List.not_mem_nil, or_false] at hlisting
  rcases hlisting with rfl | rfl
  · cases hactivities
  · cases hactivities
    obtain rfl := List.mem_singleton.mp hlisted
    exact ⟨0, rfl⟩

/-- The location sign-in is lost when the details of the other one cannot be read. -/
theorem failing_detail_loses_signin :
    ¬ Reports noFilters (twoCourses (.ok [⟨⟨"71", 1, 4, 0⟩, .ok 0⟩]) (.error timeout)) := by
  intro hreports
  have hlost : healthyTasks noFilters
      (twoCourses (.ok [⟨⟨"71", 1, 4, 0⟩, .ok 0⟩]) (.error timeout)) = [] := hreports
  have hfound : (healthyTasks noFilters
      (twoCourses (.ok [⟨⟨"71", 1, 4, 0⟩, .ok 0⟩]) (.error timeout))).length = 1 := by decide
  rw [hlost] at hfound
  cases hfound

end UniversityHelper.ActiveTasks
