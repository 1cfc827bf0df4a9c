import UniversityHelper.Machine
import UniversityHelper.UpdateCheck

/-! `UpdateChecker` on its event loop: any number of status calls, the lock they share, and the loop that
refreshes without it. Between two awaits nothing interferes. Instants are in microseconds. -/
namespace UniversityHelper.UpdateChecker
open UpdateCheck

/-! ### One request -/

/-- The object that the releases API returns; `draft` and `prerelease` are the truth of those entries. -/
structure ReleaseData where
  draft : Bool
  prerelease : Bool
  tagName : String
  htmlUrl : String
  body : String
  publishedAt : Option String

/-- `failed` is an exception that `refresh` handles; `none` a body that is no object. -/
inductive Response
  | failed
  | answered (statusCode : ℕ) (data : Option ReleaseData)

structure Release where
  tag : String
  htmlUrl : String
  notes : String
  publishedAt : Option String
  checkedAt : ℕ

def maxNotesChars : ℕ := 2000

/-- What `refresh` stores, if it stores a release; `none` where `parse_version` raises. -/
def accept (checkedAt : ℕ) : Response → Option (Option Release)
  | .failed => some none
  | .answered statusCode data =>
    if statusCode ≠ 200 then some none
    else match data with
      | none => some none
      | some data =>
        if data.draft || data.prerelease then some none
        else (parseVersion (some data.tagName)).map fun key => key.map fun _ =>
          { tag := data.tagName, htmlUrl := data.htmlUrl
            notes := String.ofList (data.body.toList.take maxNotesChars)
            publishedAt := data.publishedAt, checkedAt := checkedAt }

/-- `tag.lstrip("v")`. -/
def stripV (tag : String) : String := String.ofList (tag.toList.dropWhile (· = 'v'))

def bashCommand (version : String) : String := "bash scripts/deploy_server.sh --tag " ++ version ++ " -y"

def powershellCommand (version : String) : String := "pwsh scripts/deploy_server.ps1 -Tag " ++ version ++ " -Yes"

/-- `update_commands`. -/
def updateCommands (tag : String) : String × String := (bashCommand (stripV tag), powershellCommand (stripV tag))

structure Status where
  current : String
  latest : Option String
  hasUpdate : Bool
  htmlUrl : Option String
  notes : String
  publishedAt : Option String
  checkedAt : Option ℕ
  commands : Option (String × String)

/-- The rest of `get_status`; `none` where `is_newer` raises. -/
def statusOf (current : String) : Option Release → Option Status
  | none => some
    { current := current, latest := none, hasUpdate := false, htmlUrl := none, notes := ""
      publishedAt := none, checkedAt := none, commands := none }
  | some release =>
    (isNewer (some (stripV release.tag)) (some current)).map fun hasUpdate =>
      { current := current, latest := some (stripV release.tag), hasUpdate := hasUpdate
        htmlUrl := some release.htmlUrl, notes := release.notes, publishedAt := release.publishedAt
        checkedAt := some release.checkedAt, commands := some (updateCommands (stripV release.tag)) }

/-! ### The event loop -/

def second : ℕ := 1000000

inductive CallPhase
  | absent
  | waiting
  | fetching
  | ended

inductive LoopPhase
  | sleeping (wake : ℕ)
  | fetching
  | stopped

/-- A request that was sent, by a status call or by the loop. -/
structure Request where
  byLoop : Bool
  sentAt : ℕ

/-- `requests` and `shown` are what GitHub and the administrators got to see. -/
structure State (ι : Type*) where
  now : ℕ
  lastAttempt : Option ℕ
  release : Option Release
  locked : Bool
  call : ι → CallPhase
  loop : LoopPhase
  requests : List Request
  shown : List Status

inductive Action (ι : Type*)
  | tick
  | call (x : ι)
  | acquire (x : ι)
  | finish (x : ι) (checkedAt : ℕ) (response : Response)
  | cancel (x : ι)
  | wake
  | finishLoop (checkedAt : ℕ) (response : Response)
  | stop

structure Settings where
  current : String
  interval : ℕ

/-- `ttl_seconds`. -/
def Settings.ttl (settings : Settings) : ℕ := settings.interval * second

/-- How long `_update_check_loop` sleeps between two requests. -/
def Settings.period (settings : Settings) : ℕ := max 60 settings.interval * second

variable {ι : Type*}

def State.isStale (settings : Settings) (s : State ι) : Bool :=
  match s.lastAttempt with
  | none => true
  | some last => settings.ttl ≤ s.now - last

/-- The part of `refresh` before its await. -/
def State.send (s : State ι) (byLoop : Bool) : State ι :=
  { s with lastAttempt := some s.now, requests := s.requests ++ [⟨byLoop, s.now⟩] }

def State.respond (settings : Settings) (s : State ι) : State ι :=
  { s with shown := s.shown ++ (statusOf settings.current s.release).toList }

def State.store (s : State ι) (outcome : Option (Option Release)) : State ι :=
  { s with release := (outcome.getD none).or s.release }

variable [DecidableEq ι]

def State.goTo (s : State ι) (x : ι) (phase : CallPhase) : State ι :=
  { s with call := Function.update s.call x phase }

def step (settings : Settings) (s : State ι) : Action ι → Option (State ι)
  | .tick => some { s with now := s.now + 1 }
  | .call x =>
    match s.call x with
    | .absent =>
      if s.isStale settings then
        if s.locked then some (s.goTo x .waiting)
        else some ({ s.send false with locked := true }.goTo x .fetching)
      else some ((s.respond settings).goTo x .ended)
    | _ => none
  | .acquire x =>
    match s.call x with
    | .waiting =>
      if s.locked then none
      -- somebody else may have asked while this call waited
      else if s.isStale settings then some ({ s.send false with locked := true }.goTo x .fetching)
      else some ((s.respond settings).goTo x .ended)
    | _ => none
  | .finish x checkedAt response =>
    match s.call x with
    | .fetching =>
      let stored := { s.store (accept checkedAt response) with locked := false }.goTo x .ended
      some (if (accept checkedAt response).isSome then stored.respond settings else stored)
    | _ => none
  | .cancel x =>
    match s.call x with
    | .waiting => some (s.goTo x .ended)
    | .fetching => some ({ s with locked := false }.goTo x .ended)
    | _ => none
  | .wake =>
    match s.loop with
    | .sleeping wake => if wake ≤ s.now then some { s.send true with loop := .fetching } else none
    | _ => none
  | .finishLoop checkedAt response =>
    match s.loop with
    | .fetching =>
      some { s.store (accept checkedAt response) with loop := .sleeping (s.now + settings.period) }
    | _ => none
  | .stop => some { s with loop := .stopped }

/-- The loop gives the application half a minute to start. -/
def machine (ι : Type*) [DecidableEq ι] (settings : Settings) : Machine (State ι) (Action ι) where
  start s := s.lastAttempt = none ∧ s.release = none ∧ s.locked = false ∧ s.call = (fun _ => .absent) ∧
    s.loop = .sleeping (s.now + 30 * second) ∧ s.requests = [] ∧ s.shown = []
  step := step settings

end UniversityHelper.UpdateChecker
