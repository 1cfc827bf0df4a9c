import UniversityHelper.ZhihuishuAdapter

/-! `start_ai_course_task`: the AI switches that a call turns on before it calls
`start_course_task`, and the two exceptions after which it turns them back. -/
namespace UniversityHelper.Zhihuishu

/-- What is used of the values of `ai_config`, taken up to Python's `==`. -/
structure Values (V : Type*) where
  none : V
  ofBool : Bool → V
  truth : V → Bool
  truth_ofBool : ∀ b, truth (ofBool b) = b

abbrev AiConfig (V : Type*) := String → Option V

/-- `aiEnabled` is `answer.ai_enabled`, absent as long as `answer` is `None`. -/
structure AiSettings (V : Type*) where
  aiConfig : AiConfig V
  configCopy : AiConfig V
  aiEnabled : Option V

/-- The values of an entry of `update_data`. -/
inductive Payload (V : Type*)
  | absent
  | other
  | dict (given : AiConfig V)

structure UpdateData (V : Type*) where
  aiConfig : Payload V
  ai : Payload V

/-- `ai_payload` of `update_config`, where it is a dict. -/
def UpdateData.aiPayload {V : Type*} (d : UpdateData V) : Option (AiConfig V) :=
  match d.aiConfig, d.ai with
  | .dict given, _ => some given
  | .absent, .dict given => some given
  | _, _ => none

/-- `previous_enabled` and `previous_answer_enabled`. -/
structure Previous (V : Type*) where
  enabled : V
  answerEnabled : V

/-- The exceptions of `start_course`; after `threadStart` its task exists. -/
inductive StartFailure
  | notLoggedIn | request | chapterNotFound | taskConflict | threadStart
  deriving DecidableEq, Repr

/-- The exceptions that `start_ai_course_task` catches. -/
def StartFailure.caught : StartFailure → Bool
  | .chapterNotFound | .taskConflict => true
  | .notLoggedIn | .request | .threadStart => false

/-- A video with the `chapter_id` of its entry. -/
structure ListedVideo where
  chapterId : String
  video : Video

/-- `_videos_up_to_chapter`, where the chapter is there. -/
def videosUpToChapter (videos : List ListedVideo) (endChapterId : String) :
    Option (List ListedVideo) :=
  let target := strip endChapterId
  match (videos.zipIdx.filter fun entry => entry.1.chapterId = target).getLast? with
  | some (_, lastIndex) => some (videos.take (lastIndex + 1))
  | none => none

/-- What `get_videos` does. -/
inductive Fetched
  | notLoggedIn
  | failed
  | videos (listed : List ListedVideo)

/-- The videos of the task, between the critical sections of `start_course`. -/
def chooseVideos (r : StartRequest) : Fetched → Except StartFailure (List Video)
  | .notLoggedIn => .error .notLoggedIn
  | .failed => .error .request
  | .videos listed =>
    match r.endChapterId with
    | none | some "" => .ok (listed.map ListedVideo.video)
    | some endChapterId =>
      match videosUpToChapter listed endChapterId with
      | some chosen => .ok (chosen.map ListedVideo.video)
      | none => .error .chapterNotFound

namespace AiSettings
variable {V : Type*} (v : Values V)

def setEnabled (value : V) (config : AiConfig V) : AiConfig V :=
  Function.update config "enabled" (some value)

/-- The first critical section of `start_ai_course_task`. -/
def switchOn (s : AiSettings V) : AiSettings V where
  aiConfig := setEnabled (v.ofBool true) s.aiConfig
  configCopy := setEnabled (v.ofBool true) s.aiConfig
  aiEnabled := s.aiEnabled.map fun _ => v.ofBool true

def previous (s : AiSettings V) : Previous V where
  enabled := (s.aiConfig "enabled").getD v.none
  answerEnabled := s.aiEnabled.getD v.none

/-- The critical section of the handler. -/
def restore (p : Previous V) (s : AiSettings V) : AiSettings V where
  aiConfig := setEnabled p.enabled s.aiConfig
  configCopy := setEnabled p.enabled s.aiConfig
  aiEnabled := s.aiEnabled.map fun _ => p.answerEnabled

/-- `_init_services`. -/
def initServices (s : AiSettings V) : AiSettings V :=
  { s with aiEnabled := some ((s.aiConfig "enabled").getD (v.ofBool false)) }

def updateConfig (d : UpdateData V) (s : AiSettings V) : AiSettings V :=
  let aiConfig : AiConfig V := match d.aiPayload with
    | some given => fun key => (given key).or (s.aiConfig key)
    | none => s.aiConfig
  { aiConfig := aiConfig
    configCopy := aiConfig
    aiEnabled := s.aiEnabled.map fun _ =>
      v.ofBool (v.truth ((aiConfig "enabled").getD (v.ofBool false))) }

end AiSettings

/-- A thread inside `start_ai_course_task`, and how its last call ended. -/
inductive AiCall (V : Type*)
  | idle
  | starting (previous : Previous V)
  | caught (previous : Previous V) (failure : StartFailure)
  | raised (failure : StartFailure)
  | returned

def AiCall.underWay {V : Type*} : AiCall V → Bool
  | .starting _ | .caught _ _ => true
  | .idle | .raised _ | .returned => false

structure AiState (C V : Type*) where
  adapter : State C
  settings : AiSettings V
  call : C → AiCall V

inductive AiAction (C V : Type*)
  | adapter (a : Action C)
  | loadVideos (c : C) (fetched : Fetched)
  | updateConfig (d : UpdateData V)
  | switchOn (c : C)
  | restore (c : C)

section Step
variable {C V : Type*} [DecidableEq C] (v : Values V)

/-- How an action ends the call of `start_course` that it is a step of. -/
def ending (s : State C) : Action C → Option (C × Except StartFailure Unit)
  | .startCheck c _ =>
    if s.loggedIn = false then some (c, .error .notLoggedIn)
    else if s.conflict = true then some (c, .error .taskConflict)
    else none
  | .install c =>
    match s.caller c with
    | .loaded _ videos =>
      if s.conflict = true then some (c, .error .taskConflict)
      else if videos = [] then some (c, .ok ())
      else none
    | _ => none
  | .startThread c ok => if ok = true then some (c, .ok ()) else none
  | .markStartError c => some (c, .error .threadStart)
  | _ => none

def AiCall.finish : AiCall V → Except StartFailure Unit → AiCall V
  | .starting previous, .error failure =>
    if failure.caught = true then .caught previous failure else .raised failure
  | .starting _, .ok () => .returned
  | call, _ => call

def AiState.goto (s : AiState C V) (c : C) (next : AiCall V) : AiState C V :=
  { s with call := Function.update s.call c next }

def AiState.finish (s : AiState C V) : Option (C × Except StartFailure Unit) → AiState C V
  | some (c, outcome) => s.goto c ((s.call c).finish outcome)
  | none => s

/-- The videos reach `start_course` by `loadVideos`, a thread in its exception handler does not
start a course, and `start_ai_course_task` passes `auto_answer=True`. -/
def AiState.allows (s : AiState C V) : Action C → Bool
  | .loadVideos _ _ => false
  | .startCheck c r =>
    match s.call c with
    | .starting _ => r.autoAnswer
    | .caught _ _ => false
    | _ => true
  | _ => true

def settingsAfter (s : AiSettings V) : Action C → AiSettings V
  | .login => s.initServices v
  | .logout => { s with aiEnabled := none }
  | _ => s

def aiStep (s : AiState C V) : AiAction C V → Option (AiState C V)
  | .adapter a =>
    if s.allows a = true then
      (step s.adapter a).map fun adapter =>
        ({ s with adapter := adapter, settings := settingsAfter v s.settings a } : AiState C V).finish
          (ending s.adapter a)
    else none
  | .loadVideos c fetched =>
    match s.adapter.caller c with
    | .loading r =>
      match chooseVideos r fetched with
      | .ok videos =>
        (step s.adapter (.loadVideos c (some videos))).map fun adapter => { s with adapter := adapter }
      | .error failure =>
        (step s.adapter (.loadVideos c none)).map fun adapter =>
          ({ s with adapter := adapter } : AiState C V).finish (some (c, .error failure))
    | _ => none
  | .updateConfig d => some { s with settings := s.settings.updateConfig v d }
  | .switchOn c =>
    match s.adapter.caller c, s.call c with
    | .idle, .idle | .idle, .raised _ | .idle, .returned =>
      some ({ s with settings := s.settings.switchOn v }.goto c (.starting (s.settings.previous v)))
    | _, _ => none
  | .restore c =>
    match s.call c with
    | .caught previous failure =>
      some ({ s with settings := s.settings.restore previous }.goto c (.raised failure))
    | _ => none

/-- A newly created adapter. -/
def AiStart (s : AiState C V) : Prop :=
  Start s.adapter ∧ s.adapter.loggedIn = false ∧ s.settings.configCopy = s.settings.aiConfig ∧
    s.settings.aiEnabled = none ∧ ∀ c, s.call c = .idle

def aiMachine (C : Type*) [DecidableEq C] {V : Type*} (v : Values V) :
    Machine (AiState C V) (AiAction C V) := ⟨AiStart, aiStep v⟩

/-- The thread whose call an action is a step of. -/
def Action.thread : Action C → Option C
  | .startCheck c _ | .loadVideos c _ | .install c | .startThread c _ | .markStartError c => some c
  | _ => none

def AiAction.thread : AiAction C V → Option C
  | .adapter a => a.thread
  | .loadVideos c _ | .switchOn c | .restore c => some c
  | .updateConfig _ => none

/-- What the other threads do. -/
def others (c : C) (actions : List (AiAction C V)) : List (AiAction C V) :=
  actions.filter fun a => a.thread ≠ some c

end Step
end UniversityHelper.Zhihuishu
