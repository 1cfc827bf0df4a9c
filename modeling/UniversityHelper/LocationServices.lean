import UniversityHelper.Machine
import UniversityHelper.JavaScriptText

/-! `useLocationServices`: the intents of the user that set the place of a sign-in, the requests they
send, and the answers. The component stays mounted, and the address field shows the form's address. -/
namespace UniversityHelper.LocationServices

inductive Kind
  | geolocation | geocode | placeSearch
  deriving DecidableEq

/-- Who has turned a loading flag on. -/
structure Owner where
  kind : Kind
  generation : ℕ
  deriving DecidableEq

/-- What the callbacks of a request have captured: its owner, and the address or query it is for. -/
structure Callback where
  owner : Owner
  address : String
  deriving DecidableEq

inductive Status
  | info | success | error
  deriving DecidableEq

/-- A place as the callers pass it on; a missing part is not applied. -/
structure Location where
  latitude : Option String
  longitude : Option String
  address : Option String

structure Candidate where
  id : String
  name : String
  address : String
  latitude : String
  longitude : String

/-- The fields of the form that a location sets. -/
structure Form where
  address : String
  latitude : String
  longitude : String
  altitude : String

structure State where
  latestAddressRef : String
  geocodeRequestIdRef : ℕ
  placeSearchRequestIdRef : ℕ
  geolocationGenerationRef : ℕ
  geocodeLoadingOwnerRef : Option Owner
  placeSearchLoadingOwnerRef : Option Owner
  geocodeLoading : Bool
  geocodeMessage : String
  geocodeStatus : Status
  placeSearchLoading : Bool
  placeSearchResults : List Candidate
  placeSearchMessage : String
  form : Form
  callbacks : List Callback

/-- What `normalizeBaiduLocationResult` returns. -/
structure Resolved where
  address : String
  latitude : String
  longitude : String

/-- How a request is answered: with a position, one that is no position, or the code of an error;
with the message of what `requestChaoxingApi` throws; or with a response, of which
`normalizeBaiduLocationResult` and `normalizeBaiduPlaceCandidates` make a result or throw. -/
inductive Answer
  | position (latitude longitude : String)
  | brokenPosition
  | positionError (code : ℤ)
  | failed (message : String)
  | resolved (location : Except String Resolved)
  | candidates (results : Except String (List Candidate))

inductive Action
  | handleAddressChange (value : String)
  | applyUserLocationIntent (location : Location) (convert : Bool)
  | pickOnMap (address : Option String) (latitude longitude : String)
  | useCurrentLocation (supported : Bool)
  | resolveLocationCoordinates
  | searchLocationCandidates
  | choosePlaceSearchResult (candidate : Candidate)
  | answer (callback : Callback) (answer : Answer)

def beginLocationIntent (s : State) : State :=
  { s with
    geolocationGenerationRef := s.geolocationGenerationRef + 1
    geocodeRequestIdRef := s.geocodeRequestIdRef + 1
    placeSearchRequestIdRef := s.placeSearchRequestIdRef + 1
    geocodeLoadingOwnerRef := none
    geocodeLoading := if s.geocodeLoadingOwnerRef ≠ none then false else s.geocodeLoading
    placeSearchLoadingOwnerRef := none
    placeSearchLoading := if s.placeSearchLoadingOwnerRef ≠ none then false else s.placeSearchLoading }

def handleAddressChange (value : String) (s : State) : State :=
  { beginLocationIntent s with
    latestAddressRef := value
    geocodeStatus := .info
    geocodeMessage := if JavaScript.trim value ≠ "" then "地址已变更，请重新解析坐标。" else ""
    placeSearchResults := []
    placeSearchMessage := ""
    form := ⟨value, "", "", ""⟩ }

/-- `toBd09` is `wgs84ToBd09` on the texts of a longitude and a latitude, `none` where they are not
both finite numbers. -/
def applyResolvedLocation (toBd09 : String → String → Option (String × String)) (location : Location)
    (convert : Bool) (s : State) : State :=
  let converted := match convert, location.longitude, location.latitude with
    | true, some longitude, some latitude => toBd09 longitude latitude
    | _, _, _ => none
  let latOut := (converted.map Prod.snd).or location.latitude
  let lngOut := (converted.map Prod.fst).or location.longitude
  { s with
    latestAddressRef := location.address.getD s.latestAddressRef
    form := { s.form with
      address := location.address.getD s.form.address
      latitude := latOut.getD s.form.latitude
      longitude := lngOut.getD s.form.longitude } }

/-- The address that a request is sent for. -/
def liveAddress (s : State) : String :=
  JavaScript.trim (if s.form.address ≠ "" then s.form.address else s.latestAddressRef)

def currentGeneration (s : State) : Kind → ℕ
  | .geolocation => s.geolocationGenerationRef
  | .geocode => s.geocodeRequestIdRef
  | .placeSearch => s.placeSearchRequestIdRef

def loadingOwner (s : State) : Kind → Option Owner
  | .geolocation | .geocode => s.geocodeLoadingOwnerRef
  | .placeSearch => s.placeSearchLoadingOwnerRef

def isCurrentOwner (s : State) (owner : Owner) : Bool :=
  currentGeneration s owner.kind = owner.generation && loadingOwner s owner.kind = some owner

/-- The callback of the request that an intent of this kind sends. -/
def nextCallback (s : State) (kind : Kind) (address : String) : Callback :=
  ⟨⟨kind, currentGeneration s kind + 1⟩, address⟩

def useCurrentLocation (supported : Bool) (s : State) : State :=
  let callback := nextCallback s .geolocation ""
  if supported = true then
    { beginLocationIntent s with
      geocodeLoadingOwnerRef := some callback.owner
      geocodeLoading := true
      geocodeStatus := .info
      geocodeMessage := "正在获取当前位置…"
      callbacks := s.callbacks ++ [callback] }
  else
    { beginLocationIntent s with
      geocodeStatus := .error
      geocodeMessage := "当前环境不支持定位，请改用地图选点或地址解析。" }

def resolveLocationCoordinates (s : State) : State :=
  let address := liveAddress s
  let callback := nextCallback s .geocode address
  if address = "" then
    { s with geocodeStatus := .error, geocodeMessage := "请先输入地址后再解析坐标。" }
  else
    { beginLocationIntent s with
      geocodeLoadingOwnerRef := some callback.owner
      geocodeLoading := true
      latestAddressRef := address
      geocodeStatus := .info
      geocodeMessage := "正在解析坐标..."
      callbacks := s.callbacks ++ [callback] }

def searchLocationCandidates (s : State) : State :=
  let query := liveAddress s
  let callback := nextCallback s .placeSearch query
  if query = "" then
    { s with placeSearchResults := [], placeSearchMessage := "请先输入地名后再搜索地点。" }
  else
    { beginLocationIntent s with
      placeSearchLoadingOwnerRef := some callback.owner
      placeSearchLoading := true
      latestAddressRef := query
      placeSearchResults := []
      placeSearchMessage := "正在搜索地点..."
      callbacks := s.callbacks ++ [callback] }

variable (toBd09 : String → String → Option (String × String))

def applyUserLocationIntent (location : Location) (convert : Bool) (s : State) : State :=
  applyResolvedLocation toBd09 location convert (beginLocationIntent s)

/-- The handler of the map picker. -/
def pickOnMap (address : Option String) (latitude longitude : String) (s : State) : State :=
  { applyUserLocationIntent toBd09 ⟨some latitude, some longitude, address⟩ true s with
    geocodeStatus := .success
    geocodeMessage := "已选点：" ++ latitude ++ ", " ++ longitude }

def choosePlaceSearchResult (candidate : Candidate) (s : State) : State :=
  let address := " ".intercalate ([candidate.name, candidate.address].filter (· ≠ ""))
  let name := if candidate.name ≠ "" then candidate.name else candidate.address
  { applyUserLocationIntent toBd09 ⟨some candidate.latitude, some candidate.longitude, some address⟩ true s with
    placeSearchResults := []
    placeSearchMessage := "已选择地点：" ++ name
    geocodeStatus := .success
    geocodeMessage := "已选坐标：" ++ candidate.latitude ++ ", " ++ candidate.longitude }

/-- The `finally` blocks of the geolocation and geocode callbacks. -/
def finishGeocode (owner : Owner) (s : State) : State :=
  if isCurrentOwner s owner = true then { s with geocodeLoadingOwnerRef := none, geocodeLoading := false }
  else s

def finishPlaceSearch (owner : Owner) (s : State) : State :=
  if isCurrentOwner s owner = true then
    { s with placeSearchLoadingOwnerRef := none, placeSearchLoading := false }
  else s

def answerGeolocation (owner : Owner) (answer : Answer) (s : State) : Option State :=
  match answer with
  | .position latitude longitude =>
    if isCurrentOwner s owner = true then
      let applied := applyResolvedLocation toBd09 ⟨some latitude, some longitude, some ""⟩ true s
      some <| finishGeocode owner <|
        if isCurrentOwner applied owner = true then
          { applied with geocodeStatus := .success, geocodeMessage := "已使用当前位置填入坐标。" }
        else applied
    else some s
  | .brokenPosition => some (if isCurrentOwner s owner = true then finishGeocode owner s else s)
  | .positionError code =>
    if isCurrentOwner s owner = true then
      some <| finishGeocode owner
        { s with
          geocodeStatus := .error
          geocodeMessage := if code = 1 then "定位权限被拒绝，请在浏览器允许定位后重试。"
            else "获取当前位置失败，请稍后重试。" }
    else some s
  | _ => none

/-- The `catch` block of `resolveLocationCoordinates`. -/
def geocodeFailed (owner : Owner) (message : String) (s : State) : State :=
  finishGeocode owner
    { s with
      geocodeStatus := .error
      geocodeMessage := if message ≠ "" then message else "地点解析失败，请稍后重试" }

def answerGeocode (callback : Callback) (answer : Answer) (s : State) : Option State :=
  let owner := callback.owner
  match answer with
  | .failed message => some (if isCurrentOwner s owner = true then geocodeFailed owner message s else s)
  | .resolved location =>
    if isCurrentOwner s owner = true then
      if JavaScript.trim s.latestAddressRef ≠ callback.address then
        some (finishGeocode owner
          { s with geocodeStatus := .info, geocodeMessage := "地址已变更，请重新解析坐标。" })
      else match location with
        | .error message => some (geocodeFailed owner message s)
        | .ok resolved =>
          let applied := applyResolvedLocation toBd09
            ⟨some resolved.latitude, some resolved.longitude, some resolved.address⟩ true s
          some <| finishGeocode owner <|
            if isCurrentOwner applied owner = true then
              { applied with
                geocodeStatus := .success
                geocodeMessage := "已解析：" ++ resolved.latitude ++ ", " ++ resolved.longitude }
            else applied
    else some s
  | _ => none

/-- The `catch` block of `searchLocationCandidates`. -/
def placeSearchFailed (owner : Owner) (message : String) (s : State) : State :=
  finishPlaceSearch owner
    { s with
      placeSearchResults := []
      placeSearchMessage := if message ≠ "" then message else "地点搜索失败，请稍后重试" }

def answerPlaceSearch (callback : Callback) (answer : Answer) (s : State) : Option State :=
  let owner := callback.owner
  match answer with
  | .failed message => some (if isCurrentOwner s owner = true then placeSearchFailed owner message s else s)
  | .candidates results =>
    if isCurrentOwner s owner = true then
      if JavaScript.trim s.latestAddressRef ≠ callback.address then
        some (finishPlaceSearch owner { s with placeSearchMessage := "地名已变更，请重新搜索。" })
      else match results with
        | .error message => some (placeSearchFailed owner message s)
        | .ok results =>
          some <| finishPlaceSearch owner
            { s with
              placeSearchResults := results
              placeSearchMessage := if 0 < results.length
                then "找到 " ++ toString results.length ++ " 个地点，请选择最接近的一个。" else "未找到可选地点" }
    else some s
  | _ => none

def step (s : State) : Action → Option State
  | .handleAddressChange value => some (handleAddressChange value s)
  | .applyUserLocationIntent location convert => some (applyUserLocationIntent toBd09 location convert s)
  | .pickOnMap address latitude longitude => some (pickOnMap toBd09 address latitude longitude s)
  | .useCurrentLocation supported => some (useCurrentLocation supported s)
  | .resolveLocationCoordinates => some (resolveLocationCoordinates s)
  | .searchLocationCandidates => some (searchLocationCandidates s)
  | .choosePlaceSearchResult candidate => some (choosePlaceSearchResult toBd09 candidate s)
  | .answer callback answer =>
    if callback ∈ s.callbacks then
      match callback.owner.kind with
      | .geolocation => answerGeolocation toBd09 callback.owner answer s
      | .geocode => answerGeocode toBd09 callback answer s
      | .placeSearch => answerPlaceSearch callback answer s
    else none

/-- The hook as it is mounted, over whatever the form holds. -/
def Start (s : State) : Prop :=
  s.latestAddressRef = "" ∧ s.geocodeRequestIdRef = 0 ∧ s.placeSearchRequestIdRef = 0 ∧
    s.geolocationGenerationRef = 0 ∧ s.geocodeLoadingOwnerRef = none ∧
    s.placeSearchLoadingOwnerRef = none ∧ s.geocodeLoading = false ∧ s.geocodeMessage = "" ∧
    s.geocodeStatus = .info ∧ s.placeSearchLoading = false ∧ s.placeSearchResults = [] ∧
    s.placeSearchMessage = "" ∧ s.callbacks = []

def machine : Machine State Action := ⟨Start, step toBd09⟩

end UniversityHelper.LocationServices
