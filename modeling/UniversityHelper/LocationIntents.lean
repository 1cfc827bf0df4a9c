import UniversityHelper.RecordedRun
import UniversityHelper.LocationServices

/-! The newest intent owns the form, the messages, the results and the loading flags. -/
namespace UniversityHelper.LocationServices

/-- The action calls `beginLocationIntent`: a request without an address is refused before. -/
def begins (s : State) : Action → Prop
  | .handleAddressChange _ | .applyUserLocationIntent _ _ | .pickOnMap _ _ _ | .useCurrentLocation _
  | .choosePlaceSearchResult _ => True
  | .resolveLocationCoordinates | .searchLocationCandidates => liveAddress s ≠ ""
  | .answer _ _ => False

instance (s : State) (a : Action) : Decidable (begins s a) := by
  cases a <;> unfold begins <;> infer_instance

/-- The request that the intent sends, unless the browser refuses it at once. -/
def requestOf (s : State) : Action → Option Callback
  | .useCurrentLocation true => some (nextCallback s .geolocation "")
  | .resolveLocationCoordinates => some (nextCallback s .geocode (liveAddress s))
  | .searchLocationCandidates => some (nextCallback s .placeSearch (liveAddress s))
  | _ => none

/-- The request of the newest intent, until it is answered. -/
def noteIntent (s : State) (a : Action) (pending : Option Callback) : Option Callback :=
  match a with
  | .answer callback _ => if pending = some callback then none else pending
  | a => if begins s a then requestOf s a else pending

def recordedMachine (toBd09 : String → String → Option (String × String)) :
    Machine (State × Option Callback) Action :=
  (machine toBd09).recording none noteIntent

/-- The flag of a request of this kind. -/
def loading (s : State) : Kind → Bool
  | .geolocation | .geocode => s.geocodeLoading
  | .placeSearch => s.placeSearchLoading

def Kind.sameFlag (kind other : Kind) : Prop := kind = .placeSearch ↔ other = .placeSearch

instance (kind other : Kind) : Decidable (kind.sameFlag other) := by
  unfold Kind.sameFlag
  infer_instance

/-! ### What a step does to the requests -/

/-- Neither generations nor owners, flags and callbacks change. -/
structure Keeps (s t : State) : Prop where
  generation : currentGeneration t = currentGeneration s
  owner : loadingOwner t = loadingOwner s
  loading : loading t = loading s
  callbacks : t.callbacks = s.callbacks

/-- What a step does to the requests. -/
inductive Move (s : State) : Action → State → Prop
  | began {a : Action} {t : State} (begun : begins s a) (silent : requestOf s a = none)
      (generation : ∀ kind, currentGeneration t kind = currentGeneration s kind + 1)
      (owner : ∀ kind, loadingOwner t kind = none)
      (flag : ∀ kind, loading t kind = if loadingOwner s kind ≠ none then false else loading s kind)
      (callbacks : t.callbacks = s.callbacks) : Move s a t
  | requested {a : Action} {t : State} {callback : Callback} (begun : begins s a)
      (sends : requestOf s a = some callback)
      (fresh : callback.owner.generation = currentGeneration s callback.owner.kind + 1)
      (generation : ∀ kind, currentGeneration t kind = currentGeneration s kind + 1)
      (owner : ∀ kind, loadingOwner t kind =
        if kind.sameFlag callback.owner.kind then some callback.owner else none)
      (flag : ∀ kind, loading t kind =
        if kind.sameFlag callback.owner.kind then true
        else if loadingOwner s kind ≠ none then false else loading s kind)
      (callbacks : t.callbacks = s.callbacks ++ [callback]) : Move s a t
  | refused {a : Action} {t : State} (idle : ¬ begins s a) (request : ∀ callback answer, a ≠ .answer callback answer)
      (keeps : Keeps s t) : Move s a t
  | ignored {callback : Callback} {answer : Answer} (stale : isCurrentOwner s callback.owner = false) :
      Move s (.answer callback answer) s
  | answered {callback : Callback} {answer : Answer} {t : State} (known : callback ∈ s.callbacks)
      (current : isCurrentOwner s callback.owner = true)
      (generation : currentGeneration t = currentGeneration s)
      (owner : ∀ kind, loadingOwner t kind =
        if kind.sameFlag callback.owner.kind then none else loadingOwner s kind)
      (flag : ∀ kind, loading t kind = if kind.sameFlag callback.owner.kind then false else loading s kind)
      (callbacks : t.callbacks = s.callbacks) : Move s (.answer callback answer) t

variable {toBd09 : String → String → Option (String × String)} {s t u : State} {a : Action}
  {callback : Callback} {answer : Answer} {kind : Kind} {pending : Option Callback}

theorem applyResolvedLocation_keeps (location : Location) (convert : Bool) :
    Keeps s (applyResolvedLocation toBd09 location convert s) :=
  ⟨by funext kind; cases kind <;> rfl, by funext kind; cases kind <;> rfl,
    by funext kind; cases kind <;> rfl, rfl⟩

theorem began_of_intent (begun : begins s a) (silent : requestOf s a = none)
    (h : Keeps (beginLocationIntent s) t) : Move s a t := by
  refine .began begun silent ?_ ?_ ?_ h.callbacks
  · intro kind
    rw [h.generation]
    cases kind <;> rfl
  · intro kind
    rw [h.owner]
    cases kind <;> rfl
  · intro kind
    rw [h.loading]
    cases kind <;> rfl

theorem Keeps.refl (s : State) : Keeps s s := ⟨rfl, rfl, rfl, rfl⟩

theorem Keeps.isCurrentOwner (h : Keeps s t) (owner : Owner) :
    isCurrentOwner t owner = isCurrentOwner s owner := by
  rw [LocationServices.isCurrentOwner, LocationServices.isCurrentOwner, h.generation, h.owner]

theorem useCurrentLocation_move (supported : Bool) :
    Move s (.useCurrentLocation supported) (useCurrentLocation supported s) := by
  cases supported with
  | false =>
    exact began_of_intent trivial rfl
      ⟨by funext kind; cases kind <;> rfl, by funext kind; cases kind <;> rfl,
        by funext kind; cases kind <;> rfl, rfl⟩
  | true =>
    refine .requested trivial rfl rfl ?_ ?_ ?_ rfl <;> intro kind <;> cases kind <;> rfl

theorem resolveLocationCoordinates_move :
    Move s .resolveLocationCoordinates (resolveLocationCoordinates s) := by
  unfold resolveLocationCoordinates
  by_cases haddress : liveAddress s = ""
  · rw [if_pos haddress]
    refine .refused (fun hbegins => hbegins haddress) (by simp) ⟨?_, ?_, ?_, rfl⟩
    all_goals funext kind; cases kind <;> rfl
  · rw [if_neg haddress]
    refine .requested haddress rfl rfl ?_ ?_ ?_ rfl <;> intro kind <;> cases kind <;> rfl

theorem searchLocationCandidates_move :
    Move s .searchLocationCandidates (searchLocationCandidates s) := by
  unfold searchLocationCandidates
  by_cases hquery : liveAddress s = ""
  · rw [if_pos hquery]
    refine .refused (fun hbegins => hbegins hquery) (by simp) ⟨?_, ?_, ?_, rfl⟩
    all_goals funext kind; cases kind <;> rfl
  · rw [if_neg hquery]
    refine .requested hquery rfl rfl ?_ ?_ ?_ rfl <;> intro kind <;> cases kind <;> rfl

theorem finishGeocode_answered (known : callback ∈ s.callbacks)
    (current : isCurrentOwner s callback.owner = true) (hkind : callback.owner.kind ≠ .placeSearch)
    (h : Keeps s t) : Move s (.answer callback answer) (finishGeocode callback.owner t) := by
  rw [finishGeocode, if_pos ((h.isCurrentOwner _).trans current)]
  refine .answered known current h.generation ?_ ?_ h.callbacks
  · intro kind
    have hsame : kind.sameFlag callback.owner.kind ↔ kind ≠ .placeSearch := by simp [Kind.sameFlag, hkind]
    simp only [hsame, ← h.owner]
    cases kind <;> rfl
  · intro kind
    have hsame : kind.sameFlag callback.owner.kind ↔ kind ≠ .placeSearch := by simp [Kind.sameFlag, hkind]
    simp only [hsame, ← h.loading]
    cases kind <;> rfl

theorem finishPlaceSearch_answered (known : callback ∈ s.callbacks)
    (current : isCurrentOwner s callback.owner = true) (hkind : callback.owner.kind = .placeSearch)
    (h : Keeps s t) : Move s (.answer callback answer) (finishPlaceSearch callback.owner t) := by
  rw [finishPlaceSearch, if_pos ((h.isCurrentOwner _).trans current)]
  refine .answered known current h.generation ?_ ?_ h.callbacks
  · intro kind
    have hsame : kind.sameFlag callback.owner.kind ↔ kind = .placeSearch := by simp [Kind.sameFlag, hkind]
    simp only [hsame, ← h.owner]
    cases kind <;> rfl
  · intro kind
    have hsame : kind.sameFlag callback.owner.kind ↔ kind = .placeSearch := by simp [Kind.sameFlag, hkind]
    simp only [hsame, ← h.loading]
    cases kind <;> rfl

/-- What the messages show is no part of the requests. -/
theorem Keeps.messages (h : Keeps s t) (status : Status) (message : String) :
    Keeps s { t with geocodeStatus := status, geocodeMessage := message } :=
  ⟨h.generation, h.owner, h.loading, h.callbacks⟩

theorem answerGeolocation_move (known : callback ∈ s.callbacks) (hkind : callback.owner.kind = .geolocation)
    (taken : answerGeolocation toBd09 callback.owner answer s = some t) :
    Move s (.answer callback answer) t := by
  have hflag : callback.owner.kind ≠ .placeSearch := by simp [hkind]
  unfold answerGeolocation at taken
  by_cases current : isCurrentOwner s callback.owner = true
  · cases answer with
    | position latitude longitude =>
      simp only [if_pos current] at taken
      cases taken
      refine finishGeocode_answered known current hflag ?_
      split_ifs
      · exact (applyResolvedLocation_keeps _ _).messages _ _
      · exact applyResolvedLocation_keeps _ _
    | brokenPosition =>
      simp only [if_pos current] at taken
      cases taken
      exact finishGeocode_answered known current hflag (.refl s)
    | positionError code =>
      simp only [if_pos current] at taken
      cases taken
      exact finishGeocode_answered known current hflag ((Keeps.refl s).messages _ _)
    | failed | resolved | candidates => cases taken
  · cases answer with
    | position | brokenPosition | positionError =>
      simp only [if_neg current] at taken
      cases taken
      exact .ignored (by simpa using current)
    | failed | resolved | candidates => cases taken

theorem answerGeocode_move (known : callback ∈ s.callbacks) (hkind : callback.owner.kind = .geocode)
    (taken : answerGeocode toBd09 callback answer s = some t) : Move s (.answer callback answer) t := by
  have hflag : callback.owner.kind ≠ .placeSearch := by simp [hkind]
  unfold answerGeocode at taken
  by_cases current : isCurrentOwner s callback.owner = true
  · cases answer with
    | failed message =>
      simp only [if_pos current] at taken
      cases taken
      exact finishGeocode_answered known current hflag ((Keeps.refl s).messages _ _)
    | resolved location =>
      simp only [if_pos current] at taken
      split at taken
      · cases taken
        exact finishGeocode_answered known current hflag ((Keeps.refl s).messages _ _)
      · cases location with
        | error message =>
          cases taken
          exact finishGeocode_answered known current hflag ((Keeps.refl s).messages _ _)
        | ok resolved =>
          cases taken
          refine finishGeocode_answered known current hflag ?_
          split_ifs
          · exact (applyResolvedLocation_keeps _ _).messages _ _
          · exact applyResolvedLocation_keeps _ _
    | position | brokenPosition | positionError | candidates => cases taken
  · cases answer with
    | failed | resolved =>
      simp only [if_neg current] at taken
      cases taken
      exact .ignored (by simpa using current)
    | position | brokenPosition | positionError | candidates => cases taken

theorem answerPlaceSearch_move (known : callback ∈ s.callbacks) (hkind : callback.owner.kind = .placeSearch)
    (taken : answerPlaceSearch callback answer s = some t) : Move s (.answer callback answer) t := by
  have hresults : ∀ (results : List Candidate) (message : String),
      Keeps s { s with placeSearchResults := results, placeSearchMessage := message } :=
    fun _ _ => ⟨rfl, rfl, rfl, rfl⟩
  unfold answerPlaceSearch at taken
  by_cases current : isCurrentOwner s callback.owner = true
  · cases answer with
    | failed message =>
      simp only [if_pos current] at taken
      cases taken
      exact finishPlaceSearch_answered known current hkind (hresults _ _)
    | candidates results =>
      simp only [if_pos current] at taken
      split at taken
      · cases taken
        exact finishPlaceSearch_answered known current hkind (hresults _ _)
      · cases results <;> cases taken <;> exact finishPlaceSearch_answered known current hkind (hresults _ _)
    | position | brokenPosition | positionError | resolved => cases taken
  · cases answer with
    | failed | candidates =>
      simp only [if_neg current] at taken
      cases taken
      exact .ignored (by simpa using current)
    | position | brokenPosition | positionError | resolved => cases taken

theorem step_move (taken : step toBd09 s a = some t) : Move s a t := by
  cases a with
  | handleAddressChange value =>
    cases taken
    exact began_of_intent trivial rfl ⟨rfl, rfl, rfl, rfl⟩
  | applyUserLocationIntent location convert =>
    cases taken
    exact began_of_intent trivial rfl (applyResolvedLocation_keeps _ _)
  | pickOnMap address latitude longitude =>
    cases taken
    exact began_of_intent trivial rfl ((applyResolvedLocation_keeps _ _).messages _ _)
  | useCurrentLocation supported =>
    cases taken
    exact useCurrentLocation_move supported
  | resolveLocationCoordinates =>
    cases taken
    exact resolveLocationCoordinates_move
  | searchLocationCandidates =>
    cases taken
    exact searchLocationCandidates_move
  | choosePlaceSearchResult candidate =>
    cases taken
    have hkeeps : Keeps (beginLocationIntent s) (choosePlaceSearchResult toBd09 candidate s) :=
      ⟨by funext kind; cases kind <;> rfl, by funext kind; cases kind <;> rfl,
        by funext kind; cases kind <;> rfl, rfl⟩
    exact began_of_intent trivial rfl hkeeps
  | answer callback answer =>
    simp only [step] at taken
    split_ifs at taken with known
    split at taken
    · exact answerGeolocation_move known (by assumption) taken
    · exact answerGeocode_move known (by assumption) taken
    · exact answerPlaceSearch_move known (by assumption) taken

/-! ### Overtaken requests -/

theorem generation_mono (taken : step toBd09 s a = some t) (kind : Kind) :
    currentGeneration s kind ≤ currentGeneration t kind := by
  cases step_move taken with
  | began begun silent generation | requested begun sends fresh generation =>
    rw [generation kind]
    exact Nat.le_succ _
  | refused idle request keeps => rw [keeps.generation]
  | ignored => exact le_refl _
  | answered known current generation => rw [generation]

theorem generation_begins (begun : begins s a) (taken : step toBd09 s a = some t) (kind : Kind) :
    currentGeneration t kind = currentGeneration s kind + 1 := by
  cases step_move taken with
  | began _ _ generation | requested _ _ _ generation => exact generation kind
  | refused idle => exact absurd begun idle
  | ignored | answered => exact absurd begun (by simp [begins])

theorem generation_run (run : (machine toBd09).Run Machine.free s t) (kind : Kind) :
    currentGeneration s kind ≤ currentGeneration t kind := by
  induction run with
  | refl => exact le_refl _
  | tail _ _ taken ih => exact ih.trans (generation_mono taken kind)

/-- A callback is as old as its request. -/
def Issued (s : State) : Prop :=
  ∀ c ∈ s.callbacks, c.owner.generation ≤ currentGeneration s c.owner.kind

theorem Issued.preserved (h : Issued s) (taken : step toBd09 s a = some t) : Issued t := by
  have hold : ∀ c ∈ s.callbacks, c.owner.generation ≤ currentGeneration t c.owner.kind :=
    fun c hc => (h c hc).trans (generation_mono taken _)
  cases step_move taken with
  | began _ _ _ _ _ callbacks | answered _ _ _ _ _ callbacks =>
    intro c hc
    exact hold c (callbacks ▸ hc)
  | requested _ _ fresh generation _ _ callbacks =>
    intro c hc
    rw [callbacks] at hc
    rcases List.mem_append.mp hc with hearlier | hlast
    · exact hold c hearlier
    · obtain rfl := List.mem_singleton.mp hlast
      rw [fresh, generation]
  | refused _ _ keeps =>
    intro c hc
    exact hold c (keeps.callbacks ▸ hc)
  | ignored => exact h

theorem Issued.of_reachable (h : (machine toBd09).Reachable Machine.free s) : Issued s := by
  refine h.invariant ?_ fun _ _ _ hs _ taken => hs.preserved taken
  rintro s ⟨-, -, -, -, -, -, -, -, -, -, -, -, hcallbacks⟩ c hc
  rw [hcallbacks] at hc
  cases hc

theorem overtaken_ignored (overtaken : callback.owner.generation < currentGeneration s callback.owner.kind)
    (taken : step toBd09 s (.answer callback answer) = some t) : t = s := by
  have hstale : isCurrentOwner s callback.owner = false := by simp [isCurrentOwner, overtaken.ne']
  cases step_move taken with
  | began begun | requested begun => exact absurd begun (by simp [begins])
  | refused _ request => exact absurd rfl (request _ _)
  | ignored => rfl
  | answered known current =>
    rw [hstale] at current
    cases current

/-! ### The flags -/

/-- The refs and flags are those of the pending request. -/
structure Synced (s : State) (pending : Option Callback) : Prop where
  issued : Issued s
  distinct : ∀ c ∈ s.callbacks, ∀ d ∈ s.callbacks, c.owner = d.owner → c = d
  flags : ∀ kind, loading s kind = (loadingOwner s kind).isSome
  idle : pending = none → ∀ kind, loadingOwner s kind = none
  held : ∀ c, pending = some c → c ∈ s.callbacks ∧
    currentGeneration s c.owner.kind = c.owner.generation ∧
    ∀ kind, loadingOwner s kind = if kind.sameFlag c.owner.kind then some c.owner else none

theorem flag_of_owner {flag : Bool} {owner : Option Owner} (h : flag = owner.isSome) :
    (if owner ≠ none then false else flag) = false := by
  cases owner with
  | none => simpa using h
  | some owner => rfl

theorem Synced.held_current (h : Synced s pending) {c : Callback} (hc : pending = some c) :
    isCurrentOwner s c.owner = true := by
  obtain ⟨-, hgeneration, howner⟩ := h.held c hc
  simp [isCurrentOwner, hgeneration, howner, Kind.sameFlag]

theorem Synced.current_held (h : Synced s pending) (known : callback ∈ s.callbacks)
    (current : isCurrentOwner s callback.owner = true) : pending = some callback := by
  simp only [isCurrentOwner, Bool.and_eq_true, decide_eq_true_eq] at current
  cases hpending : pending with
  | none =>
    rw [h.idle hpending] at current
    cases current.2
  | some c =>
    obtain ⟨hmem, -, howner⟩ := h.held c hpending
    have hsame := current.2
    rw [howner] at hsame
    split_ifs at hsame
    rw [h.distinct c hmem callback known (Option.some_inj.mp hsame)]

theorem noteIntent_of_ne (a : Action) (hne : ∀ callback answer, a ≠ .answer callback answer) :
    noteIntent s a pending = if begins s a then requestOf s a else pending := by
  cases a with
  | answer callback answer => exact absurd rfl (hne callback answer)
  | _ => rfl

theorem begins_ne_answer (begun : begins s a) (callback : Callback) (answer : Answer) :
    a ≠ .answer callback answer := by
  rintro rfl
  exact begun

theorem Synced.preserved (h : Synced s pending) (taken : step toBd09 s a = some t) :
    Synced t (noteIntent s a pending) := by
  have hissued : Issued t := h.issued.preserved taken
  cases step_move taken with
  | began begun silent generation owner flag callbacks =>
    rw [noteIntent_of_ne a (begins_ne_answer begun), if_pos begun, silent]
    refine ⟨hissued, by rw [callbacks]; exact h.distinct, fun kind => ?_, fun _ => owner, fun c hc => by cases hc⟩
    rw [flag, owner, flag_of_owner (h.flags kind)]
    rfl
  | @requested _ _ callback begun sends fresh generation owner flag callbacks =>
    rw [noteIntent_of_ne a (begins_ne_answer begun), if_pos begun, sends]
    have hnew : ∀ c ∈ s.callbacks, c.owner ≠ callback.owner := by
      intro c hc hsame
      have hle := h.issued c hc
      rw [hsame, fresh] at hle
      omega
    refine ⟨hissued, ?_, fun kind => ?_, fun hnone => absurd hnone (Option.some_ne_none _),
      fun c hc => ?_⟩
    · intro c hc d hd hsame
      rw [callbacks] at hc hd
      rcases List.mem_append.mp hc with hc | hc <;> rcases List.mem_append.mp hd with hd | hd
      · exact h.distinct c hc d hd hsame
      · exact absurd (List.mem_singleton.mp hd ▸ hsame) (hnew c hc)
      · exact absurd (List.mem_singleton.mp hc ▸ hsame.symm) (hnew d hd)
      · rw [List.mem_singleton.mp hc, List.mem_singleton.mp hd]
    · rw [flag, owner, flag_of_owner (h.flags kind)]
      split_ifs <;> rfl
    · obtain rfl : callback = c := Option.some_inj.mp hc
      exact ⟨by simp [callbacks], by rw [generation, fresh], owner⟩
  | refused idle request keeps =>
    rw [noteIntent_of_ne a request, if_neg idle]
    refine ⟨hissued, by rw [keeps.callbacks]; exact h.distinct, ?_, ?_, ?_⟩
    · rw [keeps.loading, keeps.owner]
      exact h.flags
    · rw [keeps.owner]
      exact h.idle
    · rw [keeps.callbacks, keeps.generation, keeps.owner]
      exact h.held
  | @ignored callback answer stale =>
    have hother : pending ≠ some callback := by
      intro hpending
      rw [h.held_current hpending] at stale
      cases stale
    rw [noteIntent, if_neg hother]
    exact h
  | @answered callback answer _ known current generation owner flag callbacks =>
    have hpending := h.current_held known current
    obtain ⟨-, -, howner⟩ := h.held callback hpending
    have hidle : ∀ kind, loadingOwner t kind = none := by
      intro kind
      rw [owner, howner]
      split_ifs <;> rfl
    rw [noteIntent, if_pos hpending]
    refine ⟨hissued, by rw [callbacks]; exact h.distinct, fun kind => ?_, fun _ => hidle, fun c hc => by cases hc⟩
    rw [hidle, flag, h.flags, howner]
    split_ifs <;> rfl

theorem synced_start (h : Start s) : Synced s none := by
  obtain ⟨-, -, -, -, hgeocode, hplace, hgeocodeLoading, -, -, hplaceLoading, -, -, hcallbacks⟩ := h
  have howner : ∀ kind, loadingOwner s kind = none := by
    intro kind
    cases kind
    · exact hgeocode
    · exact hgeocode
    · exact hplace
  refine ⟨fun c hc => ?_, fun c hc => ?_, fun kind => ?_, fun _ => howner, fun c hc => by cases hc⟩
  · rw [hcallbacks] at hc
    cases hc
  · rw [hcallbacks] at hc
    cases hc
  · rw [howner]
    cases kind
    · exact hgeocodeLoading
    · exact hgeocodeLoading
    · exact hplaceLoading

theorem Synced.of_reachable
    (reached : (recordedMachine toBd09).Reachable Machine.free (s, pending)) : Synced s pending := by
  have hfree : (recordedMachine toBd09).Reachable (fun p a => Machine.free p.1 a) (s, pending) := reached
  exact hfree.recorded (J := fun _ => True) (fun _ _ => trivial) (fun _ => synced_start)
    fun _ _ _ _ _ hs _ taken => hs.preserved taken

theorem Synced.loading_iff (h : Synced s pending) (kind : Kind) :
    loading s kind = true ↔ ∃ c, pending = some c ∧ kind.sameFlag c.owner.kind := by
  rw [h.flags]
  cases hpending : pending with
  | none => simp [h.idle hpending]
  | some c =>
    obtain ⟨-, -, howner⟩ := h.held c hpending
    simp [howner]

/-- The answer to a request after which a newer intent began changes nothing, and a loading flag is on
exactly while the newest intent is an unanswered request that shows by it. -/
theorem last_intent_wins (toBd09 : String → String → Option (String × String)) :
    (∀ s₁ s₂ s₃ s₄ t callback intent answer, (machine toBd09).Reachable Machine.free s₁ →
      callback ∈ s₁.callbacks → (machine toBd09).Run Machine.free s₁ s₂ → begins s₂ intent →
      step toBd09 s₂ intent = some s₃ → (machine toBd09).Run Machine.free s₃ s₄ →
      step toBd09 s₄ (.answer callback answer) = some t → t = s₄) ∧
    ∀ s pending, (recordedMachine toBd09).Reachable Machine.free (s, pending) →
      (s.geocodeLoading = true ↔ ∃ c, pending = some c ∧ c.owner.kind ≠ .placeSearch) ∧
      (s.placeSearchLoading = true ↔ ∃ c, pending = some c ∧ c.owner.kind = .placeSearch) := by
  constructor
  · intro s₁ s₂ s₃ s₄ t callback intent answer reach known before begun taken after answered
    have hissued := Issued.of_reachable reach callback known
    have hbefore := generation_run before callback.owner.kind
    have hafter := generation_run after callback.owner.kind
    rw [generation_begins begun taken] at hafter
    exact overtaken_ignored (by omega) answered
  · intro s pending reached
    have hsynced := Synced.of_reachable reached
    refine ⟨(hsynced.loading_iff .geocode).trans ?_, (hsynced.loading_iff .placeSearch).trans ?_⟩
    · simp [Kind.sameFlag]
    · simp [Kind.sameFlag]

def mounted : State where
  latestAddressRef := ""
  geocodeRequestIdRef := 0
  placeSearchRequestIdRef := 0
  geolocationGenerationRef := 0
  geocodeLoadingOwnerRef := none
  placeSearchLoadingOwnerRef := none
  geocodeLoading := false
  geocodeMessage := ""
  geocodeStatus := .info
  placeSearchLoading := false
  placeSearchResults := []
  placeSearchMessage := ""
  form := ⟨"", "", "", ""⟩
  callbacks := []

/-- No text is converted. -/
def unconverted (_ _ : String) : Option (String × String) := none

def gpsCallback : Callback := ⟨⟨.geolocation, 1⟩, ""⟩

def afterGps : State := useCurrentLocation true mounted

/-- A typed latitude overtakes the position that the browser still looks for. -/
def afterTyping : State :=
  applyUserLocationIntent unconverted ⟨some "39.9", none, none⟩ false afterGps

theorem last_intent_wins_typed :
    (∃ t, step unconverted afterTyping (.answer gpsCallback (.positionError 1)) = some t ∧ t = afterTyping) ∧
      (afterGps.geocodeLoading = true ↔ ∃ c, some gpsCallback = some c ∧ c.owner.kind ≠ .placeSearch) := by
  have hstart : (machine unconverted).start mounted := by
    simp [machine, Start, mounted]
  have hgps : (machine unconverted).Reachable Machine.free afterGps :=
    (Machine.Reachable.start hstart).tail (a := .useCurrentLocation true) trivial rfl
  have hblank : (recordedMachine unconverted).start (mounted, none) := ⟨hstart, rfl⟩
  have hrecorded : (recordedMachine unconverted).Reachable Machine.free (afterGps, some gpsCallback) :=
    (Machine.Reachable.start hblank).tail (a := .useCurrentLocation true) trivial rfl
  obtain ⟨hignored, hflags⟩ := last_intent_wins unconverted
  have hanswer : step unconverted afterTyping (.answer gpsCallback (.positionError 1)) = some afterTyping := rfl
  refine ⟨⟨_, hanswer, ?_⟩, (hflags afterGps (some gpsCallback) hrecorded).1⟩
  exact hignored afterGps afterGps afterTyping afterTyping afterTyping gpsCallback
    (.applyUserLocationIntent ⟨some "39.9", none, none⟩ false) (.positionError 1) hgps (by decide) .refl trivial rfl
    .refl hanswer

end UniversityHelper.LocationServices
