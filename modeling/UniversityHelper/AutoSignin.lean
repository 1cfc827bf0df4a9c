import UniversityHelper.JavaScriptText
import UniversityHelper.OrderedDict
import UniversityHelper.PythonText

/-! One cycle of the automatic sign-in: the page asks for the active sign-ins of all courses, and
for each of them sends a `/sign` request for its course and type, which the server answers by
listing the active sign-ins of that course and type again and submitting the first one. -/
namespace UniversityHelper.AutoSignin

/-- The sign-in types of `_resolve_sign_type`. -/
inductive SignType
  | normal | photo | location | qrcode | gesture | code | unknown
  deriving DecidableEq

def SignType.text : SignType → String
  | .normal => "normal"
  | .photo => "photo"
  | .location => "location"
  | .qrcode => "qrcode"
  | .gesture => "gesture"
  | .code => "code"
  | .unknown => "unknown"

/-- A course as `get_courses` lists it: with both of its ids, without blanks around them. -/
structure Course where
  courseId : String
  classId : String
  courseName : String
  courseId_stripped : strip courseId = courseId
  classId_stripped : strip classId = classId
  courseId_ne : courseId ≠ ""
  classId_ne : classId ≠ ""

/-- An entry of an activity list, its numbers as `_as_int` reads them. -/
structure Activity where
  id : String
  status : ℤ
  otherId : ℤ
  ifphoto : ℤ

/-- What the platform answers throughout a cycle: the courses, their activity lists and the
`ifphoto` of an activity's details; what it makes of a photo and `_extract_enc` of a QR code. -/
structure Upstream where
  courses : List Course
  activityList : String → String → List Activity
  activeInfo : String → ℤ
  objectId : String → String
  enc : String → String

structure Task where
  taskId : String
  activeId : String
  courseId : String
  rawCourseId : String
  classId : String
  courseName : String
  type : SignType

/-- A request to the platform on behalf of a sign-in. -/
inductive SignRequest
  | preSign (activeId : String)
  | analysis (activeId : String)
  | sign (activeId : String)
  deriving DecidableEq

def resolveSignType (upstream : Upstream) (activity : Activity) (activeId : String) : SignType :=
  if activity.otherId = 3 then .gesture
  else if activity.otherId = 5 then .code
  else if activity.otherId = 4 then .location
  else if activity.otherId = 2 then .qrcode
  else if activity.otherId = 0 then
    if activity.ifphoto = 1 ∨ upstream.activeInfo activeId = 1 then .photo else .normal
  else .unknown

/-- A course id, and a class id unless the filter is about all classes of the course. -/
def parseCourseFilter (courseFilter : String) : Option String × Option String :=
  if courseFilter = "" then (none, none)
  else
    let raw := strip courseFilter
    match splitText raw (if ':' ∈ raw.toList then ':' else '_') with
    | [] => (none, none)
    | [courseId] => (some courseId, none)
    | courseId :: classId :: _ =>
      if courseId ≠ "" ∧ classId ≠ "" then (some courseId, some classId) else (some courseId, none)

def matchesFilter (courseFilter : String) (courseId classId : String) : Bool :=
  parseCourseFilter courseFilter = (some courseId, some classId) ||
    parseCourseFilter courseFilter = (some courseId, none)

def asFilterSet (values : List String) : List String := (values.map strip).filter (· ≠ "")

def activityToTask (course : Course) (activity : Activity) (signType : SignType) : Task where
  taskId := strip course.courseId ++ ":" ++ strip course.classId ++ ":" ++ strip activity.id
  activeId := strip activity.id
  courseId := strip course.courseId ++ "_" ++ strip course.classId
  rawCourseId := strip course.courseId
  classId := strip course.classId
  courseName := course.courseName
  type := signType

/-- An activity that is an open sign-in of the expected type. -/
def activeTask (upstream : Upstream) (activeFilters : List String) (expectedType : String)
    (course : Course) (activity : Activity) : Option Task :=
  if activity.status ≠ 1 then none
  else if activity.otherId ∉ [0, 2, 3, 4, 5] then none
  else if activity.id = "" then none
  else if activeFilters ≠ [] ∧ activity.id ∉ activeFilters then none
  else
    let signType := resolveSignType upstream activity activity.id
    if expectedType ≠ "all" ∧ signType.text ≠ expectedType then none
    else some (activityToTask course activity signType)

/-- `get_active_tasks` of the client, all of whose requests succeed. -/
def getActiveTasks (upstream : Upstream) (courseFilters classFilters activeIds : List String)
    (expectedType : String) : List Task :=
  let classes := asFilterSet classFilters
  upstream.courses.flatMap fun course =>
    if courseFilters ≠ [] ∧
      (courseFilters.any fun f => matchesFilter f course.courseId course.classId) = false then []
    else if classes ≠ [] ∧ course.classId ∉ classes then []
    else
      (upstream.activityList course.courseId course.classId).filterMap
        (activeTask upstream (asFilterSet activeIds) expectedType course)

/-- An item of the `/tasks` answer. -/
structure FeedItem where
  taskId : String
  activeId : String
  courseId : String
  courseName : String
  type : String
  actionable : Bool
  source : String
  deriving DecidableEq

def decorateLiveTask (task : Task) : FeedItem where
  taskId := task.taskId
  activeId := task.activeId
  courseId := task.courseId
  courseName := task.courseName
  type := task.type.text
  actionable := true
  source := "live"

/-- A task or a history record of `_build_background_task_feed`. -/
structure BackgroundItem where
  taskId : String
  courseName : String
  type : String
  source : String

def toTaskFeedItem (item : BackgroundItem) : FeedItem where
  taskId := item.taskId
  activeId := ""
  courseId := ""
  courseName := item.courseName
  type := item.type
  actionable := false
  source := item.source

/-- `get_active_tasks` of the manager; `none` is the error of a user who is not logged in. -/
def tasksAnswer (upstream : Upstream) (loggedIn : Bool) (background : List BackgroundItem) :
    Option (List FeedItem) :=
  let liveTasks := if loggedIn = true then getActiveTasks upstream [] [] [] "all" else []
  if liveTasks ≠ [] then some (liveTasks.map decorateLiveTask)
  else if loggedIn = false ∧ background = [] then none
  else some (background.map toTaskFeedItem)

/-- The sign-in form, without the entries about the location. -/
structure Form where
  username : String
  password : String
  signType : String
  qrCode : String
  signCode : String
  gesturePattern : String
  photoFile : Option String

structure SignPayload where
  username : String
  password : String
  signType : String
  courseId : String
  qrCode : String
  signCode : String
  gesture : String
  photoBase64 : String

/-- `buildSigninPayload` with the type that `applySigninAssets` is called with. -/
def buildSigninPayload (form : Form) (courseId signTypeOverride : String) : SignPayload × String :=
  let signType := if signTypeOverride ≠ "" then signTypeOverride else form.signType
  ({ username := JavaScript.trim form.username
     password := form.password
     signType := if signType = "" then "all" else signType
     courseId := courseId
     qrCode := if signType = "qrcode" ∨ signType = "all" then JavaScript.trim form.qrCode else ""
     signCode := if signType = "code" ∨ signType = "all" then JavaScript.trim form.signCode else ""
     gesture := if signType = "gesture" ∨ signType = "all" then JavaScript.trim form.gesturePattern else ""
     photoBase64 := "" }, signType)

/-- The payload, unless something that the type needs is missing. -/
def applySigninAssets (form : Form) (payload : SignPayload) (signType : String) : Option SignPayload :=
  if signType = "photo" ∧ form.photoFile = none then none
  else if signType = "qrcode" ∧ payload.qrCode = "" then none
  else if signType = "gesture" ∧ payload.gesture = "" then none
  else if signType = "code" ∧ payload.signCode = "" then none
  else if signType = "photo" ∨ signType = "all" then
    some { payload with photoBase64 := form.photoFile.getD "" }
  else some payload

def signTypeAliases : List (String × String) :=
  [("qr", "qrcode"), ("qr_code", "qrcode"), ("qr-code", "qrcode"), ("gesture_sign", "gesture"),
    ("signcode", "code"), ("passcode", "code")]

def normalizeSignType (value : String) : String :=
  let raw := lower (strip (if value = "" then "all" else value))
  (signTypeAliases.lookup raw).getD raw

def supportedSignTypes : List String :=
  ["all", "normal", "photo", "location", "qrcode", "gesture", "code"]

/-- `_normalize_sign_payload`: the code of a gesture counts as a sign code too. -/
def normalizeSignPayload (payload : SignPayload) : SignPayload :=
  { payload with
    signType := normalizeSignType payload.signType
    courseId := strip payload.courseId
    signCode := strip (if strip payload.signCode ≠ "" then payload.signCode else payload.gesture) }

/-- The requests of `_pre_sign`, all of which succeed. -/
def preSign (task : Task) : List SignRequest := [.preSign task.activeId, .analysis task.activeId]

/-- The requests of `sign_task`; without what the type needs, the one that signs is not sent. -/
def signTask (upstream : Upstream) (task : Task) (preferredType : String) (payload : SignPayload) :
    List SignRequest :=
  let signType := if preferredType = "all" then task.type.text else preferredType
  let submit : List SignRequest := [.sign task.activeId]
  if signType ∉ ["normal", "location", "qrcode", "photo", "gesture", "code"] then []
  else
    preSign task ++
      (if signType = "qrcode" then if upstream.enc payload.qrCode = "" then [] else submit
      else if signType = "photo" then
        if payload.photoBase64 = "" ∨ upstream.objectId payload.photoBase64 = "" then [] else submit
      else if signType = "gesture" ∨ signType = "code" then
        if payload.signCode = "" then [] else submit
      else submit)

/-- `sign_once`, whose login succeeds. -/
def signOnce (upstream : Upstream) (payload : SignPayload) : List SignRequest :=
  let filters := if payload.courseId ≠ "" then [payload.courseId] else []
  match getActiveTasks upstream filters [] [] payload.signType with
  | [] => []
  | target :: _ => signTask upstream target payload.signType payload

/-- `executeSignin` with the `/sign` request it sends. -/
def executeSignin (upstream : Upstream) (form : Form) (courseId signTypeOverride : String) :
    List SignRequest :=
  if JavaScript.trim form.username = "" ∨ form.password = "" then []
  else
    let (payload, signType) := buildSigninPayload form courseId signTypeOverride
    match applySigninAssets form payload signType with
    | none => []
    | some payload =>
      let request := normalizeSignPayload payload
      if request.signType ∈ supportedSignTypes then signOnce upstream request else []

/-- Milliseconds. -/
def autoSignTaskCooldown : ℤ := 2 * 60 * 1000

abbrev Cache := OrderedDict String ℤ

def taskType (item : FeedItem) : String := if item.type = "" then "normal" else item.type

def taskKey (item : FeedItem) : String :=
  (if item.taskId ≠ "" then item.taskId
    else if item.activeId ≠ "" then item.activeId
    else if item.courseId ≠ "" then item.courseId
    else if item.courseName ≠ "" then item.courseName
    else "task") ++ ":" ++ taskType item

def inCooldown (cache : Cache) (now : ℤ) (item : FeedItem) : Bool :=
  now - (cache.get (taskKey item)).getD 0 < autoSignTaskCooldown

def passesFilter (autoSignFilter : String) (item : FeedItem) : Bool :=
  if item.actionable = false ∨ item.source = "background" then false
  else if autoSignFilter = "all" then true
  else if autoSignFilter = "gesture" ∨ autoSignFilter = "code" then taskType item = "normal"
  else taskType item = autoSignFilter

/-- The loop over the filtered tasks. -/
def signEach (upstream : Upstream) (form : Form) (now : ℤ) :
    Cache → List FeedItem → List SignRequest × Cache
  | cache, [] => ([], cache)
  | cache, item :: rest =>
    if inCooldown cache now item = true then signEach upstream form now cache rest
    else
      let (requests, cache) := signEach upstream form now (cache.set (taskKey item) now) rest
      (executeSignin upstream form item.courseId (taskType item) ++ requests, cache)

/-- A page with the automatic sign-in switched on, and the time of its cycle. -/
structure Page where
  form : Form
  autoSignFilter : String
  cache : Cache
  now : ℤ

/-- The `/tasks` answer a cycle got, and the requests that its sign-ins led to. -/
structure Cycle where
  answer : Option (List FeedItem)
  requests : List SignRequest
  cache : Cache

/-- `runAutoSigninCycle` of the current generation. -/
def runAutoSigninCycle (upstream : Upstream) (loggedIn : Bool) (background : List BackgroundItem)
    (page : Page) : Cycle :=
  if JavaScript.trim page.form.username = "" ∨ page.form.password = "" then ⟨none, [], page.cache⟩
  else
    match tasksAnswer upstream loggedIn background with
    | none => ⟨none, [], page.cache⟩
    | some items =>
      let (requests, cache) := signEach upstream page.form page.now page.cache
        (items.filter (passesFilter page.autoSignFilter))
      ⟨some items, requests, cache⟩

end UniversityHelper.AutoSignin
