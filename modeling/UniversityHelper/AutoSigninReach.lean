import UniversityHelper.AutoSignin

/-! Which of the active sign-ins one cycle submits: of each course, class and type that it attempts,
the one that is listed first. -/
namespace UniversityHelper.AutoSignin

variable {upstream : Upstream} {page : Page}

/-- An item of the answer that the cycle is to sign: its cooldown is over when the cycle begins. -/
def ToSign (page : Page) (answer : List FeedItem) (item : FeedItem) : Prop :=
  item ∈ answer ∧ passesFilter page.autoSignFilter item = true ∧
    inCooldown page.cache page.now item = false

/-- The property of a cycle that reaches every pending task. -/
def Reaches (page : Page) (cycle : Cycle) : Prop :=
  ∀ answer, cycle.answer = some answer → ∀ item, ToSign page answer item →
    SignRequest.sign item.activeId ∈ cycle.requests

/-- An item the loop gets to: one to sign, and the first with its key. -/
def Attempted (page : Page) (answer : List FeedItem) (item : FeedItem) : Prop :=
  ∃ before after, answer.filter (passesFilter page.autoSignFilter) = before ++ item :: after ∧
    inCooldown page.cache page.now item = false ∧ ∀ e ∈ before, taskKey e ≠ taskKey item

/-- Of the course, the class and the type of an item. -/
def sameGroup (item : FeedItem) (task : Task) : Bool :=
  matchesFilter (strip item.courseId) task.rawCourseId task.classId && task.type.text = item.type

def firstOfGroup (upstream : Upstream) (item : FeedItem) : Option Task :=
  (getActiveTasks upstream [] [] [] "all").find? (sameGroup item)

/-- Every item to sign is the first of its group, up to its active id and to the item that has it
signed. -/
def FirstInGroup (upstream : Upstream) (page : Page) (cycle : Cycle) : Prop :=
  ∀ answer, cycle.answer = some answer → ∀ item, ToSign page answer item →
    ∃ other first, Attempted page answer other ∧ firstOfGroup upstream other = some first ∧
      first.activeId = item.activeId

/-- The form has what a sign-in of the type needs, and the platform accepts it. -/
def Form.supplies (upstream : Upstream) (form : Form) : SignType → Prop
  | .photo => ∃ photo, form.photoFile = some photo ∧ photo ≠ "" ∧ upstream.objectId photo ≠ ""
  | .qrcode => JavaScript.trim form.qrCode ≠ "" ∧ upstream.enc (JavaScript.trim form.qrCode) ≠ ""
  -- the server trims these once more, in its own way
  | .gesture => strip (JavaScript.trim form.gesturePattern) ≠ ""
  | .code => strip (JavaScript.trim form.signCode) ≠ ""
  | _ => True

theorem inCooldown_of_key {cache : Cache} {now : ℤ} {e item : FeedItem} (h : taskKey e = taskKey item) :
    inCooldown cache now e = inCooldown cache now item := by
  rw [inCooldown, inCooldown, h]

theorem inCooldown_set {cache : Cache} {now : ℤ} {e item : FeedItem} :
    inCooldown (cache.set (taskKey e) now) now item = false ↔
      taskKey e ≠ taskKey item ∧ inCooldown cache now item = false := by
  by_cases hkey : taskKey item = taskKey e
  · simp [inCooldown, hkey, autoSignTaskCooldown]
  · simp [inCooldown, hkey, Ne.symm hkey]

theorem mem_signEach {form : Form} {now : ℤ} {request : SignRequest} (items : List FeedItem)
    (cache : Cache) :
    request ∈ (signEach upstream form now cache items).1 ↔
      ∃ before item after, items = before ++ item :: after ∧ inCooldown cache now item = false ∧
        (∀ e ∈ before, taskKey e ≠ taskKey item) ∧
        request ∈ executeSignin upstream form item.courseId (taskType item) := by
  induction items generalizing cache with
  | nil => simp [signEach]
  | cons head rest ih =>
    by_cases hcool : inCooldown cache now head = true
    · rw [signEach, if_pos hcool, ih]
      constructor
      · rintro ⟨before, item, after, rfl, hready, hnew, hrequest⟩
        refine ⟨head :: before, item, after, rfl, hready, ?_, hrequest⟩
        rintro e he hkey
        rcases List.mem_cons.mp he with rfl | he
        · rw [inCooldown_of_key hkey, hready] at hcool
          cases hcool
        · exact hnew e he hkey
      · rintro ⟨before, item, after, hsplit, hready, hnew, hrequest⟩
        cases before with
        | nil =>
          obtain ⟨rfl, rfl⟩ := List.cons.inj hsplit
          rw [hready] at hcool
          cases hcool
        | cons e before =>
          obtain ⟨rfl, rfl⟩ := List.cons.inj hsplit
          exact ⟨before, item, after, rfl, hready, fun d hd => hnew d (List.mem_cons_of_mem _ hd),
            hrequest⟩
    · rw [signEach, if_neg hcool]
      simp only [List.mem_append, ih, inCooldown_set]
      rw [Bool.not_eq_true] at hcool
      constructor
      · rintro (hrequest | ⟨before, item, after, rfl, ⟨hother, hready⟩, hnew, hrequest⟩)
        · exact ⟨[], head, rest, rfl, hcool, by simp, hrequest⟩
        · refine ⟨head :: before, item, after, rfl, hready, ?_, hrequest⟩
          rintro e he
          rcases List.mem_cons.mp he with rfl | he
          · exact hother
          · exact hnew e he
      · rintro ⟨before, item, after, hsplit, hready, hnew, hrequest⟩
        cases before with
        | nil =>
          obtain ⟨rfl, rfl⟩ := List.cons.inj hsplit
          exact .inl hrequest
        | cons e before =>
          obtain ⟨rfl, rfl⟩ := List.cons.inj hsplit
          exact .inr ⟨before, item, after, rfl, ⟨hnew _ List.mem_cons_self, hready⟩,
            fun d hd => hnew d (List.mem_cons_of_mem _ hd), hrequest⟩

theorem resolveSignType_ne {activity : Activity} (h : activity.otherId ∈ ([0, 2, 3, 4, 5] : List ℤ))
    (activeId : String) : resolveSignType upstream activity activeId ≠ .unknown := by
  simp only [List.mem_cons, List.not_mem_nil, or_false] at h
  unfold resolveSignType
  split_ifs
  all_goals first | omega | simp

/-- An open sign-in of a known kind. -/
def Activity.Open (activity : Activity) : Prop :=
  activity.status = 1 ∧ activity.otherId ∈ ([0, 2, 3, 4, 5] : List ℤ) ∧ activity.id ≠ ""

theorem activeTask_eq_some {expectedType : String} {course : Course} {activity : Activity}
    {task : Task} :
    activeTask upstream [] expectedType course activity = some task ↔
      activity.Open ∧ task = activityToTask course activity
        (resolveSignType upstream activity activity.id) ∧
      (expectedType = "all" ∨ task.type.text = expectedType) := by
  by_cases hopen : activity.Open
  · obtain ⟨hstatus, hother, hid⟩ := hopen
    rw [activeTask, if_neg (not_not.mpr hstatus), if_neg (not_not.mpr hother), if_neg hid,
      if_neg (by simp)]
    dsimp only
    split_ifs with hexpected
    · constructor
      · rintro ⟨⟩
      · rintro ⟨-, rfl, hall | htype⟩
        · exact absurd hall hexpected.1
        · exact absurd htype hexpected.2
    · rw [Option.some_inj]
      constructor
      · rintro rfl
        refine ⟨⟨hstatus, hother, hid⟩, rfl, ?_⟩
        by_cases hall : expectedType = "all"
        · exact .inl hall
        · exact .inr (not_not.mp fun htype => hexpected ⟨hall, htype⟩)
      · rintro ⟨-, rfl, -⟩
        rfl
  · have hnone : activeTask upstream [] expectedType course activity = none := by
      unfold activeTask
      split_ifs with hstatus hother hid hfilter
      all_goals first | rfl | exact absurd ⟨not_not.mp hstatus, hother, hid⟩ hopen
    simp [hnone, hopen]

theorem mem_getActiveTasks {task : Task} (h : task ∈ getActiveTasks upstream [] [] [] "all") :
    ∃ course ∈ upstream.courses, ∃ activity, task = activityToTask course activity task.type ∧
      task.type ≠ .unknown := by
  simp only [getActiveTasks, asFilterSet, List.map_nil, List.filter_nil, ne_eq, not_true_eq_false,
    false_and, if_false, List.mem_flatMap, List.mem_filterMap, activeTask_eq_some] at h
  obtain ⟨course, hcourse, activity, -, hopen, rfl, -⟩ := h
  exact ⟨course, hcourse, activity, rfl, resolveSignType_ne hopen.2.1 _⟩

/-- The tasks that one course and one type leave. -/
theorem activeTask_group (f : String) {expectedType : String} (h : expectedType ≠ "all")
    (course : Course) (activity : Activity) :
    ((activeTask upstream [] "all" course activity).filter fun task =>
      matchesFilter f task.rawCourseId task.classId && task.type.text = expectedType) =
      if matchesFilter f course.courseId course.classId = true then
        activeTask upstream [] expectedType course activity else none := by
  ext task
  have hids : ∀ type, (activityToTask course activity type).rawCourseId = course.courseId ∧
      (activityToTask course activity type).classId = course.classId := fun _ =>
    ⟨course.courseId_stripped, course.classId_stripped⟩
  rw [Option.filter_eq_some_iff, activeTask_eq_some]
  split_ifs with hmatch
  · rw [activeTask_eq_some]
    constructor
    · rintro ⟨⟨hopen, htask, -⟩, hgroup⟩
      exact ⟨hopen, htask, .inr (by simpa using (Bool.and_eq_true_iff.mp hgroup).2)⟩
    · rintro ⟨hopen, rfl, hall | htype⟩
      · exact absurd hall h
      · exact ⟨⟨hopen, rfl, .inl rfl⟩, by simp [hids, hmatch, htype]⟩
  · simp only [iff_false, not_and]
    rintro ⟨-, rfl, -⟩
    simp [hids, hmatch]

/-- Listing one course and type again is filtering the whole list. -/
theorem getActiveTasks_group (f : String) {expectedType : String} (h : expectedType ≠ "all") :
    getActiveTasks upstream [f] [] [] expectedType =
      (getActiveTasks upstream [] [] [] "all").filter fun task =>
        matchesFilter f task.rawCourseId task.classId && task.type.text = expectedType := by
  simp only [getActiveTasks, asFilterSet, List.map_nil, List.filter_nil, ne_eq, not_true_eq_false,
    false_and, if_false, List.cons_ne_nil, not_false_eq_true, true_and, List.any_cons, List.any_nil,
    Bool.or_false, List.filter_flatMap, List.filter_filterMap, activeTask_group f h]
  congr 1
  funext course
  by_cases hmatch : matchesFilter f course.courseId course.classId = true
  · simp [hmatch]
  · simp [hmatch]

theorem text_ne_all (type : SignType) : type.text ≠ "all" := by cases type <;> decide

theorem text_ne_empty (type : SignType) : type.text ≠ "" := by cases type <;> decide

/-- The type that the page read from its answer is the one the server lists. -/
theorem normalizeSignType_text (type : SignType) : normalizeSignType type.text = type.text := by
  cases type <;> decide

/-- Joined ids do not vanish when the request strips them. -/
theorem strip_joined_ne (courseId classId : String) : strip (courseId ++ "_" ++ classId) ≠ "" := by
  intro h
  have hnil : stripChars (courseId ++ "_" ++ classId).toList = [] := by
    simpa [strip] using congrArg String.toList h
  rw [stripChars, List.rdropWhile_eq_nil_iff] at hnil
  have hempty : (courseId ++ "_" ++ classId).toList.dropWhile isSpace = [] := by
    by_contra hne
    have hhead := List.dropWhile_get_zero_not isSpace (courseId ++ "_" ++ classId).toList
      (List.length_pos_of_ne_nil hne)
    exact hhead (hnil _ (List.getElem_mem _))
  have hspace := (List.dropWhile_eq_nil_iff.mp hempty) '_' (by simp)
  exact absurd hspace (by decide)

/-- What a request must carry for a sign-in of the type to be sent. -/
def SignPayload.carries (upstream : Upstream) (payload : SignPayload) : SignType → Prop
  | .photo => payload.photoBase64 ≠ "" ∧ upstream.objectId payload.photoBase64 ≠ ""
  | .qrcode => upstream.enc payload.qrCode ≠ ""
  | .gesture | .code => payload.signCode ≠ ""
  | _ => True

/-- The request for a type whose needs the form supplies. -/
theorem exists_request {form : Form} {type : SignType} (hsupplied : form.supplies upstream type)
    (courseId : String) :
    ∃ payload, applySigninAssets form (buildSigninPayload form courseId type.text).1
        (buildSigninPayload form courseId type.text).2 = some payload ∧
      (normalizeSignPayload payload).courseId = strip courseId ∧
      (normalizeSignPayload payload).signType = type.text ∧
      (normalizeSignPayload payload).carries upstream type := by
  have hnormal := normalizeSignType_text type
  have hblank : strip "" = "" := by decide
  cases type with
  | normal => simp_all [buildSigninPayload, applySigninAssets, normalizeSignPayload, SignType.text,
      SignPayload.carries]
  | location => simp_all [buildSigninPayload, applySigninAssets, normalizeSignPayload, SignType.text,
      SignPayload.carries]
  | unknown => simp_all [buildSigninPayload, applySigninAssets, normalizeSignPayload, SignType.text,
      SignPayload.carries]
  | photo =>
    obtain ⟨photo, hphoto, hne, hobject⟩ := hsupplied
    simp_all [buildSigninPayload, applySigninAssets, normalizeSignPayload, SignType.text,
      SignPayload.carries]
  | qrcode =>
    obtain ⟨hne, henc⟩ := hsupplied
    simp_all [buildSigninPayload, applySigninAssets, normalizeSignPayload, SignType.text,
      SignPayload.carries]
  | gesture =>
    have hstripped : strip (JavaScript.trim form.gesturePattern) ≠ "" := hsupplied
    have hne : JavaScript.trim form.gesturePattern ≠ "" := fun h => hstripped (by rw [h, hblank])
    simp_all [buildSigninPayload, applySigninAssets, normalizeSignPayload, SignType.text,
      SignPayload.carries]
  | code =>
    have hstripped : strip (JavaScript.trim form.signCode) ≠ "" := hsupplied
    have hne : JavaScript.trim form.signCode ≠ "" := fun h => hstripped (by rw [h, hblank])
    simp_all [buildSigninPayload, applySigninAssets, normalizeSignPayload, SignType.text,
      SignPayload.carries]

/-- A request that carries what the type needs has the sign-in of the target submitted. -/
theorem sign_mem_signTask {type : SignType} (hknown : type ≠ .unknown) {payload : SignPayload}
    (hcarries : payload.carries upstream type) (target : Task) (activeId : String) :
    SignRequest.sign activeId ∈ signTask upstream target type.text payload ↔
      target.activeId = activeId := by
  cases type with
  | unknown => exact absurd rfl hknown
  | normal => simp [signTask, preSign, SignType.text, eq_comm]
  | location => simp [signTask, preSign, SignType.text, eq_comm]
  | photo =>
    obtain ⟨hne, hobject⟩ := hcarries
    simp [signTask, preSign, SignType.text, hne, hobject, eq_comm]
  | qrcode =>
    have henc : upstream.enc payload.qrCode ≠ "" := hcarries
    simp [signTask, preSign, SignType.text, henc, eq_comm]
  | gesture =>
    have hcode : payload.signCode ≠ "" := hcarries
    simp [signTask, preSign, SignType.text, hcode, eq_comm]
  | code =>
    have hcode : payload.signCode ≠ "" := hcarries
    simp [signTask, preSign, SignType.text, hcode, eq_comm]

theorem text_supported {type : SignType} (hknown : type ≠ .unknown) :
    type.text ∈ supportedSignTypes := by
  cases type with
  | unknown => exact absurd rfl hknown
  | _ => decide

/-- With what its type needs at hand, the sign-in that the server picks is submitted, and no other. -/
theorem sign_mem_executeSignin {form : Form} {type : SignType} (hknown : type ≠ .unknown)
    (hcredentials : ¬(JavaScript.trim form.username = "" ∨ form.password = ""))
    (hsupplied : form.supplies upstream type) {courseId : String} (hcourse : strip courseId ≠ "")
    (activeId : String) :
    SignRequest.sign activeId ∈ executeSignin upstream form courseId type.text ↔
      ∃ target, (getActiveTasks upstream [strip courseId] [] [] type.text).head? = some target ∧
        target.activeId = activeId := by
  obtain ⟨payload, hpayload, hid, htype, hcarries⟩ := exists_request hsupplied courseId
  rw [executeSignin, if_neg hcredentials]
  dsimp only
  rw [hpayload]
  dsimp only
  rw [htype, if_pos (text_supported hknown), signOnce, hid, htype, if_pos hcourse]
  cases getActiveTasks upstream [strip courseId] [] [] type.text with
  | nil => simp
  | cons target rest => simp [sign_mem_signTask hknown hcarries]

theorem live_of_passes {loggedIn : Bool} {background : List BackgroundItem} {answer : List FeedItem}
    (h : tasksAnswer upstream loggedIn background = some answer) {autoSignFilter : String}
    {item : FeedItem} (hitem : item ∈ answer) (hpasses : passesFilter autoSignFilter item = true) :
    ∃ task ∈ getActiveTasks upstream [] [] [] "all", item = decorateLiveTask task := by
  have hbackground : item ∉ background.map toTaskFeedItem := by
    intro hmem
    obtain ⟨source, -, rfl⟩ := List.mem_map.mp hmem
    simp [passesFilter, toTaskFeedItem] at hpasses
  cases loggedIn with
  | false =>
    simp only [tasksAnswer, Bool.false_eq_true, if_false, ne_eq, not_true_eq_false, true_and] at h
    split_ifs at h
    obtain rfl := Option.some_inj.mp h
    exact absurd hitem hbackground
  | true =>
    simp only [tasksAnswer, if_true, Bool.true_eq_false, false_and, if_false] at h
    split_ifs at h
    · obtain rfl := Option.some_inj.mp h
      obtain ⟨task, htask, rfl⟩ := List.mem_map.mp hitem
      exact ⟨task, htask, rfl⟩
    · obtain rfl := Option.some_inj.mp h
      exact absurd hitem hbackground

/-- The sign-in that an attempt of a listed task has submitted. -/
theorem sign_mem_attempt {form : Form} {task : Task}
    (listed : task ∈ getActiveTasks upstream [] [] [] "all")
    (hcredentials : ¬(JavaScript.trim form.username = "" ∨ form.password = ""))
    (hsupplied : form.supplies upstream task.type) (activeId : String) :
    SignRequest.sign activeId ∈ executeSignin upstream form (decorateLiveTask task).courseId
        (taskType (decorateLiveTask task)) ↔
      ∃ first, firstOfGroup upstream (decorateLiveTask task) = some first ∧
        first.activeId = activeId := by
  obtain ⟨course, -, activity, htask, hknown⟩ := mem_getActiveTasks listed
  have hcourse : strip (decorateLiveTask task).courseId ≠ "" := by
    rw [htask]
    exact strip_joined_ne _ _
  have htype : taskType (decorateLiveTask task) = task.type.text :=
    if_neg (text_ne_empty task.type)
  rw [htype, sign_mem_executeSignin hknown hcredentials hsupplied hcourse,
    getActiveTasks_group _ (text_ne_all task.type), List.head?_filter]
  rfl

/-- A cycle submits every sign-in it is to submit if and only if each of them is the first of its
group. -/
theorem cycle_reaches_iff (upstream : Upstream) (loggedIn : Bool) (background : List BackgroundItem)
    (page : Page) (supplied : ∀ task ∈ getActiveTasks upstream [] [] [] "all",
      page.form.supplies upstream task.type) :
    Reaches page (runAutoSigninCycle upstream loggedIn background page) ↔
      FirstInGroup upstream page (runAutoSigninCycle upstream loggedIn background page) := by
  unfold runAutoSigninCycle
  by_cases hcredentials : JavaScript.trim page.form.username = "" ∨ page.form.password = ""
  · rw [if_pos hcredentials]
    simp [Reaches, FirstInGroup]
  · rw [if_neg hcredentials]
    cases hanswer : tasksAnswer upstream loggedIn background with
    | none => simp [Reaches, FirstInGroup]
    | some items =>
      have hone : ∀ activeId, SignRequest.sign activeId ∈
          (signEach upstream page.form page.now page.cache
            (items.filter (passesFilter page.autoSignFilter))).1 ↔
          ∃ other first, Attempted page items other ∧ firstOfGroup upstream other = some first ∧
            first.activeId = activeId := by
        intro activeId
        have hlive : ∀ {before other after},
            items.filter (passesFilter page.autoSignFilter) = before ++ other :: after →
            (SignRequest.sign activeId ∈ executeSignin upstream page.form other.courseId
                (taskType other) ↔
              ∃ first, firstOfGroup upstream other = some first ∧ first.activeId = activeId) := by
          intro before other after hsplit
          have hmem : other ∈ items.filter (passesFilter page.autoSignFilter) := by simp [hsplit]
          obtain ⟨hother, hpasses⟩ := List.mem_filter.mp hmem
          obtain ⟨task, listed, rfl⟩ := live_of_passes hanswer hother hpasses
          exact sign_mem_attempt listed hcredentials (supplied task listed) activeId
        rw [mem_signEach]
        constructor
        · rintro ⟨before, other, after, hsplit, hready, hnew, hrequest⟩
          obtain ⟨first, hfirst, hid⟩ := (hlive hsplit).mp hrequest
          exact ⟨other, first, ⟨before, after, hsplit, hready, hnew⟩, hfirst, hid⟩
        · rintro ⟨other, first, ⟨before, after, hsplit, hready, hnew⟩, hfirst, hid⟩
          exact ⟨before, other, after, hsplit, hready, hnew, (hlive hsplit).mpr ⟨first, hfirst, hid⟩⟩
      simp only [Reaches, FirstInGroup, Option.some_inj]
      constructor
      · rintro hreaches answer rfl item hitem
        exact (hone item.activeId).mp (hreaches _ rfl item hitem)
      · rintro hfirst answer rfl item hitem
        exact (hone item.activeId).mpr (hfirst _ rfl item hitem)

theorem strip_joined {courseId classId : String} (hcourse : strip courseId = courseId)
    (hclass : strip classId = classId) (hcourse_ne : courseId ≠ "") (hclass_ne : classId ≠ "") :
    strip (courseId ++ "_" ++ classId) = courseId ++ "_" ++ classId := by
  have hchars : ∀ {text : String}, strip text = text → stripChars text.toList = text.toList := by
    intro text htext
    simpa [strip] using congrArg String.toList htext
  have hne : courseId.toList ≠ [] ∧ classId.toList ≠ [] := by simp [hcourse_ne, hclass_ne]
  have hjoined : (courseId ++ "_" ++ classId).toList = courseId.toList ++ '_' :: classId.toList := by
    simp
  have hstart : (courseId ++ "_" ++ classId).toList.dropWhile isSpace =
      (courseId ++ "_" ++ classId).toList := by
    have hfirst : courseId.toList.dropWhile isSpace = courseId.toList := by
      rw [← hchars hcourse, dropWhile_stripChars]
    rw [hjoined]
    cases hcs : courseId.toList with
    | nil => exact absurd hcs hne.1
    | cons c cs =>
      rw [hcs, List.dropWhile_eq_self_iff] at hfirst
      rw [List.dropWhile_eq_self_iff]
      exact fun _ => hfirst (by simp)
  have hend : (courseId ++ "_" ++ classId).toList.rdropWhile isSpace =
      (courseId ++ "_" ++ classId).toList := by
    have hlast : classId.toList.rdropWhile isSpace = classId.toList := by
      rw [← hchars hclass, stripChars, List.rdropWhile_idempotent]
    rw [List.rdropWhile_eq_self_iff] at hlast
    rw [hjoined, List.rdropWhile_eq_self_iff]
    intro _
    rw [List.getLast_append_of_ne_nil _ (List.cons_ne_nil _ _), List.getLast_cons hne.2]
    exact hlast hne.2
  rw [strip, stripChars, hstart, hend, String.ofList_toList]

/-- A filter of two joined ids is about exactly this course and class. -/
theorem parseCourseFilter_joined {courseId classId : String}
    (hstrip : strip (courseId ++ "_" ++ classId) = courseId ++ "_" ++ classId)
    (hcourse_ne : courseId ≠ "") (hclass_ne : classId ≠ "")
    (hcourse : ':' ∉ courseId.toList ∧ '_' ∉ courseId.toList)
    (hclass : ':' ∉ classId.toList ∧ '_' ∉ classId.toList) :
    parseCourseFilter (courseId ++ "_" ++ classId) = (some courseId, some classId) := by
  have hchars : (courseId ++ "_" ++ classId).toList = courseId.toList ++ '_' :: classId.toList := by
    simp
  have hcolon : ':' ∉ (courseId ++ "_" ++ classId).toList := by
    simp [hcourse.1, hclass.1]
  have hsplit : splitText (courseId ++ "_" ++ classId) '_' = [courseId, classId] := by
    rw [splitText, hchars, List.splitOn_append_cons_self, List.splitOn_eq_singleton hcourse.2,
      List.splitOn_eq_singleton hclass.2]
    simp
  have hne : courseId ++ "_" ++ classId ≠ "" := by
    intro h
    have := congrArg String.toList h
    simp at this
  rw [parseCourseFilter, if_neg hne]
  dsimp only
  rw [hstrip, if_neg hcolon, hsplit]
  simp [hcourse_ne, hclass_ne]

/-- For ids without separators, a group is the open sign-ins of one course, class and type. -/
theorem sameGroup_iff {course : Course}
    (hcourse : ':' ∉ course.courseId.toList ∧ '_' ∉ course.courseId.toList)
    (hclass : ':' ∉ course.classId.toList ∧ '_' ∉ course.classId.toList) (activity : Activity)
    (type : SignType) (task : Task) :
    sameGroup (decorateLiveTask (activityToTask course activity type)) task = true ↔
      task.rawCourseId = course.courseId ∧ task.classId = course.classId ∧
        task.type.text = type.text := by
  have hstrip := strip_joined course.courseId_stripped course.classId_stripped course.courseId_ne
    course.classId_ne
  have hparse := parseCourseFilter_joined hstrip course.courseId_ne course.classId_ne hcourse hclass
  simp only [sameGroup, decorateLiveTask, activityToTask, course.courseId_stripped,
    course.classId_stripped, hstrip, matchesFilter, hparse, Bool.and_eq_true, Bool.or_eq_true,
    decide_eq_true_eq, Prod.mk.injEq, Option.some_inj, reduceCtorEq, and_false, or_false]
  constructor
  · rintro ⟨⟨hraw, hclassId⟩, htype⟩
    exact ⟨hraw.symm, hclassId.symm, htype⟩
  · rintro ⟨hraw, hclassId, htype⟩
    exact ⟨⟨hraw.symm, hclassId.symm⟩, htype⟩

def oneCourse : Course where
  courseId := "100"
  classId := "200"
  courseName := "Algebra"
  courseId_stripped := by decide
  classId_stripped := by decide
  courseId_ne := by decide
  classId_ne := by decide

/-- One course with the given open sign-ins, all of the normal type. -/
def openSignins (ids : List String) : Upstream where
  courses := [oneCourse]
  activityList _ _ := ids.map fun id => ⟨id, 1, 0, 0⟩
  activeInfo _ := 0
  objectId photo := photo
  enc qrCode := qrCode

def freshPage : Page where
  form := ⟨"13800000000", "secret", "normal", "", "", "", none⟩
  autoSignFilter := "all"
  cache := OrderedDict.empty
  now := 1700000000000

def listed (id : String) : FeedItem :=
  decorateLiveTask (activityToTask oneCourse ⟨id, 1, 0, 0⟩ .normal)

def anotherCourse : Course where
  courseId := "101"
  classId := "201"
  courseName := "Logic"
  courseId_stripped := by decide
  classId_stripped := by decide
  courseId_ne := by decide
  classId_ne := by decide

/-- Two courses, each with one open sign-in. -/
def twoCourses : Upstream :=
  { openSignins [] with
    courses := [oneCourse, anotherCourse]
    activityList := fun courseId _ => [⟨if courseId = "100" then "10" else "11", 1, 0, 0⟩] }

def listedSecond : FeedItem :=
  decorateLiveTask (activityToTask anotherCourse ⟨"11", 1, 0, 0⟩ .normal)

theorem twoCourses_supplied : ∀ task ∈ getActiveTasks twoCourses [] [] [] "all",
    freshPage.form.supplies twoCourses task.type := by
  intro task htask
  have hnormal : ∀ task ∈ getActiveTasks twoCourses [] [] [] "all", task.type = .normal := by decide
  rw [hnormal task htask]
  trivial

/-- With one open sign-in in each of two courses the cycle reaches both. -/
theorem two_signins_reached : Reaches freshPage (runAutoSigninCycle twoCourses true [] freshPage) ∧
    ToSign freshPage [listed "10", listedSecond] listedSecond := by
  refine ⟨?_, by decide, by decide, by decide⟩
  apply (cycle_reaches_iff _ _ _ _ twoCourses_supplied).mpr
  have hanswer : (runAutoSigninCycle twoCourses true [] freshPage).answer =
      some [listed "10", listedSecond] := by rfl
  intro answer hsome item hitem
  obtain rfl := Option.some_inj.mp (hanswer.symm.trans hsome)
  rcases List.mem_cons.mp hitem.1 with rfl | hlast
  · exact ⟨listed "10", _, ⟨[], [listedSecond], by rfl, by decide, by simp⟩, rfl, rfl⟩
  · obtain rfl := List.mem_singleton.mp hlast
    exact ⟨listedSecond, _, ⟨[listed "10"], [], by rfl, by decide, by decide⟩, rfl, rfl⟩

/-- Of two open sign-ins of one course the second is never submitted. -/
theorem second_signin_missed :
    ¬ Reaches freshPage (runAutoSigninCycle (openSignins ["10", "11"]) true [] freshPage) := by
  intro h
  have hmissed : SignRequest.sign "11" ∈
      (runAutoSigninCycle (openSignins ["10", "11"]) true [] freshPage).requests :=
    h [listed "10", listed "11"] (by rfl) (listed "11") ⟨by decide, by decide, by decide⟩
  exact absurd hmissed (by decide)

end UniversityHelper.AutoSignin
