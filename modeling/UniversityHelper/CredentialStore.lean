import UniversityHelper.CredentialCrypto

/-! When the credentials of a payload are stored encrypted and read back, and when a credential that
cannot be decrypted leaves the others alone. -/
namespace UniversityHelper.Credentials
universe u
variable {ν : Type*} (fernet : Fernet ν)

/-! ### Strings -/

section Strings
variable {fernet} {n : ν} {value plain : Text}

theorem encryptStr_plain (hne : value ≠ []) (hencodable : encodable value = true)
    (hplain : ¬ PREFIX <+: value) :
    encryptStr fernet n value = some (PREFIX ++ fernet.encrypt n value) := by
  rw [encryptStr, if_neg hne, if_neg hplain, if_pos hencodable]

theorem encryptStr_raises (hne : value ≠ []) (hencodable : encodable value = false)
    (hplain : ¬ PREFIX <+: value) : encryptStr fernet n value = none := by
  simp [encryptStr, hne, hplain, hencodable]

theorem decryptStr_sealed : decryptStr fernet (PREFIX ++ fernet.encrypt n plain) = .ok plain := by
  have hne : PREFIX ++ fernet.encrypt n plain ≠ [] := by simp [PREFIX]
  rw [decryptStr, if_neg hne, if_neg (not_not.mpr (List.prefix_append _ _))]
  simp only [List.drop_left, fernet.ascii, not_true, if_false, fernet.decrypt_encrypt]

theorem decryptStr_plain (hplain : ¬ PREFIX <+: value) : decryptStr fernet value = .ok value := by
  rw [decryptStr]
  split_ifs
  · rfl
  · rfl

/-- No string is an encryption of itself. -/
theorem ne_sealed : value ≠ PREFIX ++ fernet.encrypt n value := by
  intro h
  have hlength := congrArg List.length h
  have hlonger := fernet.longer n value
  rw [List.length_append] at hlength
  omega

theorem decrypt_ne_self (h : fernet.decrypt (value.drop PREFIX.length) = some plain) :
    value ≠ plain := by
  rintro rfl
  obtain ⟨n, htoken⟩ := fernet.rejects _ _ h
  have hlonger := fernet.longer n value
  rw [← htoken, List.length_drop] at hlonger
  omega

/-- The strings at which `decrypt_dict_fields` raises. -/
theorem openStr_eq_none : openStr fernet value = none ↔
    PREFIX <+: value ∧ isAscii (value.drop PREFIX.length) = false := by
  unfold openStr decryptStr
  by_cases hne : value = []
  · subst hne
    simp [PREFIX]
  by_cases hmarked : PREFIX <+: value
  · cases hascii : isAscii (value.drop PREFIX.length)
    · simp [hne, hmarked, hascii]
    · cases hplain : fernet.decrypt (value.drop PREFIX.length) <;>
        simp [hne, hmarked, hascii, hplain]
  · simp [hne, hmarked]

theorem openStr_of_ok (h : decryptStr fernet value = .ok plain) : openStr fernet value = some plain := by
  rw [openStr, h]

theorem decryptStr_eq_ok (h : decryptStr fernet value = .ok plain) :
    value = plain ∨ PREFIX <+: value ∧ fernet.decrypt (value.drop PREFIX.length) = some plain := by
  by_cases hmarked : PREFIX <+: value
  · have hne : value ≠ [] := by
      rintro rfl
      simp [PREFIX] at hmarked
    rw [decryptStr, if_neg hne, if_neg (not_not.mpr hmarked)] at h
    simp only at h
    split_ifs at h
    split at h
    · next opened hopened =>
      obtain rfl := Except.ok.inj h
      exact .inr ⟨hmarked, hopened⟩
    · cases h
  · rw [decryptStr_plain hmarked] at h
    exact .inl (Except.ok.inj h)

theorem decryptStr_opens (hmarked : PREFIX <+: value)
    (h : fernet.decrypt (value.drop PREFIX.length) = some plain) :
    decryptStr fernet value = .ok plain := by
  obtain ⟨token, rfl⟩ := hmarked
  rw [List.drop_left] at h
  obtain ⟨n, rfl⟩ := fernet.rejects _ _ h
  exact decryptStr_sealed

end Strings

/-! ### One dictionary -/

section Level
variable {β : Type u} {data : Dict β} {draw : String → ν}

theorem sensitive_nodup : sensitiveFields.Nodup := by decide

theorem credentials_not_sensitive : "credentials" ∉ sensitiveFields := by decide

/-- Every sensitive string of `data` that is not empty is in `out` by an encryption of it. -/
def Sealed (data out : Dict β) : Prop :=
  ∀ field ∈ sensitiveFields, ∀ value, data.get field = some (.text value) → value ≠ [] →
    ∃ n, out.get field = some (.text (PREFIX ++ fernet.encrypt n value))

/-- Every sensitive string of `data` that can be decrypted is so in `out`. -/
def Opened (data out : Dict β) : Prop :=
  ∀ field ∈ sensitiveFields, ∀ value plain, data.get field = some (.text value) →
    decryptStr fernet value = .ok plain → out.get field = some (.text plain)

/-- The sensitive strings of `data` have no surrogates, and none begins with the mark of a
ciphertext. -/
def Sealable (data : Dict β) : Prop :=
  ∀ field ∈ sensitiveFields, ∀ value, data.get field = some (.text value) → value ≠ [] →
    encodable value = true ∧ ¬ PREFIX <+: value

/-- No sensitive string of `data` goes on with more than ASCII after the mark of a ciphertext, or
none is a ciphertext that can be decrypted. -/
def Readable (data : Dict β) : Prop :=
  (∀ field ∈ sensitiveFields, ∀ value, data.get field = some (.text value) → PREFIX <+: value →
    isAscii (value.drop PREFIX.length) = true) ∨
  ∀ field ∈ sensitiveFields, ∀ value, data.get field = some (.text value) → PREFIX <+: value →
    fernet.decrypt (value.drop PREFIX.length) = none

theorem encryptLevel_runs
    (h : ∀ field ∈ sensitiveFields, ∀ value, data.get field = some (.text value) →
      encryptStr fernet (draw field) value ≠ none) :
    (encryptLevel fernet draw data).keys = data.keys ∧
      ∀ k, (encryptLevel fernet draw data).get k = if k ∈ sensitiveFields then
        (data.get k).map (swap (encryptStr fernet (draw k))) else data.get k := by
  obtain ⟨out, hout, hkeys, hget⟩ := replaceFields_runs sensitive_nodup h
  have hlevel : encryptLevel fernet draw data = out := by
    rw [encryptLevel, encryptDictFields, hout, Option.getD_some]
  rw [hlevel]
  exact ⟨hkeys, hget⟩

theorem encryptLevel_raises {field : String} (hfield : field ∈ sensitiveFields) {value : Text}
    (hvalue : data.get field = some (.text value))
    (hraises : encryptStr fernet (draw field) value = none) (k : String) :
    (encryptLevel fernet draw data).get k = if k ∈ sensitiveFields then none else data.get k := by
  have hnone : encryptDictFields fernet draw data sensitiveFields = none :=
    replaceFields_raises sensitive_nodup hfield hvalue hraises
  rw [encryptLevel, hnone, Option.getD_none, get_foldl_erase]

theorem get_encryptLevel_of_not_mem {k : String} (hk : k ∉ sensitiveFields) :
    (encryptLevel fernet draw data).get k = data.get k := by
  by_cases hruns : ∀ field ∈ sensitiveFields, ∀ value, data.get field = some (.text value) →
      encryptStr fernet (draw field) value ≠ none
  · rw [(encryptLevel_runs fernet hruns).2, if_neg hk]
  · push Not at hruns
    obtain ⟨field, hfield, value, hvalue, hraises⟩ := hruns
    rw [encryptLevel_raises fernet hfield hvalue hraises, if_neg hk]

variable {fernet} in
theorem Sealable.encrypts (h : Sealable data) {field : String} (hfield : field ∈ sensitiveFields)
    {value : Text} (hvalue : data.get field = some (.text value)) :
    encryptStr fernet (draw field) value =
      some (if value = [] then [] else PREFIX ++ fernet.encrypt (draw field) value) := by
  by_cases hne : value = []
  · rw [if_pos hne, hne]
    rfl
  · obtain ⟨hencodable, hplain⟩ := h field hfield value hvalue hne
    rw [if_neg hne, encryptStr_plain hne hencodable hplain]

theorem Sealable.level (draw : String → ν) (h : Sealable data) :
    (encryptLevel fernet draw data).keys = data.keys ∧
      ∀ k, (encryptLevel fernet draw data).get k = if k ∈ sensitiveFields then
        (data.get k).map (swap (encryptStr fernet (draw k))) else data.get k := by
  apply encryptLevel_runs
  intro field hfield value hvalue hnone
  rw [h.encrypts hfield hvalue] at hnone
  cases hnone

theorem sealed_encryptLevel_iff (draw : String → ν) :
    Sealed fernet data (encryptLevel fernet draw data) ↔ Sealable data := by
  constructor
  · intro h field hfield value hvalue hne
    obtain ⟨n, hsealed⟩ := h field hfield value hvalue hne
    have hnot_dropped : ∀ f ∈ sensitiveFields, ∀ v, data.get f = some (.text v) →
        encryptStr fernet (draw f) v ≠ none := by
      intro f hf v hv hraises
      rw [encryptLevel_raises fernet hf hv hraises, if_pos hfield] at hsealed
      cases hsealed
    have hplain : ¬ PREFIX <+: value := by
      intro hmarked
      have hkept : encryptStr fernet (draw field) value = some value := by
        rw [encryptStr, if_neg hne, if_pos hmarked]
      rw [(encryptLevel_runs fernet hnot_dropped).2, if_pos hfield, hvalue, Option.map_some, swap,
        hkept, Option.getD_some] at hsealed
      exact ne_sealed (Value.text.inj (Option.some.inj hsealed))
    refine ⟨?_, hplain⟩
    cases hencodable : encodable value with
    | true => rfl
    | false => exact absurd (encryptStr_raises hne hencodable hplain) (hnot_dropped _ hfield _ hvalue)
  · intro h field hfield value hvalue hne
    refine ⟨draw field, ?_⟩
    rw [(h.level fernet draw).2, if_pos hfield, hvalue, Option.map_some, swap, h.encrypts hfield hvalue,
      if_neg hne, Option.getD_some]

theorem decryptLevel_runs
    (h : ∀ field ∈ sensitiveFields, ∀ value, data.get field = some (.text value) →
      openStr fernet value ≠ none) :
    (decryptLevel fernet data).keys = data.keys ∧
      ∀ k, (decryptLevel fernet data).get k = if k ∈ sensitiveFields then
        (data.get k).map (swap (openStr fernet)) else data.get k := by
  obtain ⟨out, hout, hkeys, hget⟩ := replaceFields_runs sensitive_nodup h
  have hlevel : decryptLevel fernet data = out := by
    rw [decryptLevel, decryptDictFields, hout, Option.getD_some]
  rw [hlevel]
  exact ⟨hkeys, hget⟩

theorem decryptLevel_raises {field : String} (hfield : field ∈ sensitiveFields) {value : Text}
    (hvalue : data.get field = some (.text value)) (hraises : openStr fernet value = none) :
    decryptLevel fernet data = data := by
  have hnone : decryptDictFields fernet data sensitiveFields = none :=
    replaceFields_raises sensitive_nodup hfield hvalue hraises
  rw [decryptLevel, hnone, Option.getD_none]

theorem get_decryptLevel_of_not_mem {k : String} (hk : k ∉ sensitiveFields) :
    (decryptLevel fernet data).get k = data.get k := by
  by_cases hruns : ∀ field ∈ sensitiveFields, ∀ value, data.get field = some (.text value) →
      openStr fernet value ≠ none
  · rw [(decryptLevel_runs fernet hruns).2, if_neg hk]
  · push Not at hruns
    obtain ⟨field, hfield, value, hvalue, hraises⟩ := hruns
    rw [decryptLevel_raises fernet hfield hvalue hraises]

theorem opened_decryptLevel_iff :
    Opened fernet data (decryptLevel fernet data) ↔ Readable fernet data := by
  constructor
  · intro h
    by_contra hnot
    simp only [Readable, not_or] at hnot
    push Not at hnot
    obtain ⟨⟨field, hfield, value, hvalue, hmarked, hascii⟩,
      other, hother, sealedText, hsealed, hmark, hdecrypts⟩ := hnot
    obtain ⟨plain, hplain⟩ := Option.ne_none_iff_exists'.mp hdecrypts
    have hraises : openStr fernet value = none :=
      openStr_eq_none.mpr ⟨hmarked, by simpa using hascii⟩
    have hopened := h other hother sealedText plain hsealed (decryptStr_opens hmark hplain)
    rw [decryptLevel_raises fernet hfield hvalue hraises, hsealed] at hopened
    exact decrypt_ne_self hplain (Value.text.inj (Option.some.inj hopened))
  · intro h field hfield value plain hvalue hplain
    by_cases hruns : ∀ f ∈ sensitiveFields, ∀ v, data.get f = some (.text v) →
        openStr fernet v ≠ none
    · rw [(decryptLevel_runs fernet hruns).2, if_pos hfield, hvalue, Option.map_some, swap,
        openStr_of_ok hplain, Option.getD_some]
    · push Not at hruns
      obtain ⟨f, hf, v, hv, hraises⟩ := hruns
      obtain ⟨hmark, hascii⟩ := openStr_eq_none.mp hraises
      rw [decryptLevel_raises fernet hf hv hraises]
      rcases decryptStr_eq_ok hplain with rfl | ⟨hmarked, hdecrypts⟩
      · exact hvalue
      · rcases h with h | h
        · rw [h f hf v hv hmark] at hascii
          cases hascii
        · rw [h field hfield value hvalue hmarked] at hdecrypts
          cases hdecrypts

/-- What is encrypted is decrypted again. -/
theorem Sealable.round_trip (draw : String → ν) (h : Sealable data) {stored : Dict β} (hkeys : stored.keys = data.keys)
    (hget : ∀ k ∈ sensitiveFields,
      stored.get k = (data.get k).map (swap (encryptStr fernet (draw k)))) :
    (decryptLevel fernet stored).keys = data.keys ∧
      ∀ k, (decryptLevel fernet stored).get k = if k ∈ sensitiveFields then data.get k
        else stored.get k := by
  have hopens : ∀ k ∈ sensitiveFields, ∀ value, data.get k = some (.text value) →
      openStr fernet ((encryptStr fernet (draw k) value).getD value) = some value := by
    intro k hk value hvalue
    rw [h.encrypts hk hvalue, Option.getD_some]
    split_ifs with hne
    · rw [hne]
      rfl
    · exact openStr_of_ok decryptStr_sealed
  have hruns : ∀ k ∈ sensitiveFields, ∀ value, stored.get k = some (.text value) →
      openStr fernet value ≠ none := by
    intro k hk value hvalue hnone
    rw [hget k hk] at hvalue
    obtain ⟨v, hv, hswap⟩ := Option.map_eq_some_iff.mp hvalue
    cases v with
    | other v => cases hswap
    | text v =>
      obtain rfl := Value.text.inj hswap
      rw [hopens k hk v hv] at hnone
      cases hnone
  obtain ⟨hkeys', hget'⟩ := decryptLevel_runs fernet hruns
  refine ⟨hkeys'.trans hkeys, ?_⟩
  intro k
  rw [hget']
  split_ifs with hk
  · rw [hget k hk, Option.map_map]
    cases hdata : data.get k with
    | none => rfl
    | some v =>
      cases v with
      | other v => rfl
      | text v =>
        rw [Option.map_some, Function.comp_apply, swap, swap, hopens k hk v hdata, Option.getD_some]
  · rfl

theorem Sealable.decrypt_encrypt (h : Sealable data) :
    decryptLevel fernet (encryptLevel fernet draw data) = data := by
  obtain ⟨hkeys, hget⟩ := h.level fernet draw
  obtain ⟨hkeys', hget'⟩ := h.round_trip fernet draw hkeys fun k hk => by
    rw [hget, if_pos hk]
  apply OrderedDict.ext_get hkeys'
  intro k
  rw [hget']
  split_ifs with hk
  · rfl
  · rw [hget, if_neg hk]

end Level

/-! ### A payload -/

section Payload
variable {α : Type u} {payload stored : Payload α} {draw nestedDraw : String → ν}

/-- The dictionary at `credentials`, if it is one. -/
def credentials (payload : Payload α) : Option (Dict α) :=
  match payload.get "credentials" with
  | some (.other (.dict nested)) => some nested
  | _ => none

theorem credentials_eq_some {nested : Dict α} :
    credentials payload = some nested ↔ payload.get "credentials" = some (.other (.dict nested)) := by
  unfold credentials
  split
  · next found hfound =>
    rw [hfound]
    simp
  · next hother =>
    constructor
    · intro h
      cases h
    · intro h
      exact absurd h (hother nested)

theorem onContainer_keys (f : Dict α → Dict α) :
    (onContainer f payload "credentials").keys = payload.keys := by
  unfold onContainer
  split
  · next nested hnested => exact OrderedDict.keys_set_of_known hnested _
  · rfl

theorem get_onContainer_of_ne (f : Dict α → Dict α) {k : String} (hk : k ≠ "credentials") :
    (onContainer f payload "credentials").get k = payload.get k := by
  unfold onContainer
  split
  · rw [OrderedDict.get_set, if_neg hk]
  · rfl

theorem onContainer_some (f : Dict α → Dict α) {nested : Dict α}
    (h : credentials payload = some nested) :
    (onContainer f payload "credentials").get "credentials" = some (.other (.dict (f nested))) := by
  unfold onContainer
  rw [credentials_eq_some.mp h]
  simp

theorem onContainer_none (f : Dict α → Dict α) (h : credentials payload = none) :
    onContainer f payload "credentials" = payload := by
  unfold onContainer
  split
  · next nested hnested =>
    rw [credentials_eq_some.mpr hnested] at h
    cases h
  · rfl

theorem ne_credentials {k : String} (hk : k ∈ sensitiveFields) : k ≠ "credentials" :=
  fun h => credentials_not_sensitive (h ▸ hk)

theorem credentials_congr (h : stored.get "credentials" = payload.get "credentials") :
    credentials stored = credentials payload := by
  rw [credentials, credentials, h]

theorem credentials_encryptLevel :
    credentials (encryptLevel fernet draw payload) = credentials payload :=
  credentials_congr (get_encryptLevel_of_not_mem fernet credentials_not_sensitive)

theorem credentials_decryptLevel : credentials (decryptLevel fernet payload) = credentials payload :=
  credentials_congr (get_decryptLevel_of_not_mem fernet credentials_not_sensitive)

theorem get_encryptSensitive {k : String} (hk : k ≠ "credentials") :
    (encryptSensitive fernet draw nestedDraw payload).get k =
      (encryptLevel fernet draw payload).get k :=
  get_onContainer_of_ne _ hk

theorem get_decryptSensitive {k : String} (hk : k ≠ "credentials") :
    (decryptSensitive fernet payload).get k = (decryptLevel fernet payload).get k :=
  get_onContainer_of_ne _ hk

theorem encryptSensitive_none (h : credentials payload = none) :
    encryptSensitive fernet draw nestedDraw payload = encryptLevel fernet draw payload :=
  onContainer_none _ ((credentials_encryptLevel fernet).trans h)

theorem decryptSensitive_none (h : credentials payload = none) :
    decryptSensitive fernet payload = decryptLevel fernet payload :=
  onContainer_none _ ((credentials_decryptLevel fernet).trans h)

theorem credentials_encryptSensitive {nested : Dict α} (h : credentials payload = some nested) :
    credentials (encryptSensitive fernet draw nestedDraw payload) =
      some (encryptLevel fernet nestedDraw nested) :=
  credentials_eq_some.mpr (onContainer_some _ ((credentials_encryptLevel fernet).trans h))

theorem credentials_decryptSensitive {nested : Dict α} (h : credentials payload = some nested) :
    credentials (decryptSensitive fernet payload) = some (decryptLevel fernet nested) :=
  credentials_eq_some.mpr (onContainer_some _ ((credentials_decryptLevel fernet).trans h))

/-- The sensitive strings of both levels are stored encrypted, and the payload is read back. -/
def StoredSealed (draw nestedDraw : String → ν) (payload : Payload α) : Prop :=
  Sealed fernet payload (encryptSensitive fernet draw nestedDraw payload) ∧
  (∀ nested, credentials payload = some nested → ∃ out,
    credentials (encryptSensitive fernet draw nestedDraw payload) = some out ∧
      Sealed fernet nested out) ∧
  decryptSensitive fernet (encryptSensitive fernet draw nestedDraw payload) = payload

/-- What can be decrypted at either level is, whatever the other values are. -/
def ReadApart (stored : Payload α) : Prop :=
  Opened fernet stored (decryptSensitive fernet stored) ∧
  ∀ nested, credentials stored = some nested → ∃ out,
    credentials (decryptSensitive fernet stored) = some out ∧ Opened fernet nested out

theorem decryptSensitive_encryptSensitive (top : Sealable payload)
    (inner : ∀ nested, credentials payload = some nested → Sealable nested) :
    decryptSensitive fernet (encryptSensitive fernet draw nestedDraw payload) = payload := by
  obtain ⟨hkeys, hget⟩ := top.level fernet draw
  have hstored : (encryptSensitive fernet draw nestedDraw payload).keys = payload.keys :=
    (onContainer_keys _).trans hkeys
  obtain ⟨hkeys', hget'⟩ := top.round_trip fernet draw hstored fun k hk => by
    rw [get_encryptSensitive fernet (ne_credentials hk), hget, if_pos hk]
  have hread : (decryptSensitive fernet (encryptSensitive fernet draw nestedDraw payload)).keys =
      payload.keys := (onContainer_keys _).trans hkeys'
  apply OrderedDict.ext_get hread
  intro k
  by_cases hk : k = "credentials"
  · subst hk
    cases hnested : credentials payload with
    | some nested =>
      have hsealed : credentials (encryptSensitive fernet draw nestedDraw payload) =
          some (encryptLevel fernet nestedDraw nested) := credentials_encryptSensitive fernet hnested
      rw [credentials_eq_some.mp (credentials_decryptSensitive fernet hsealed),
        (inner nested hnested).decrypt_encrypt, credentials_eq_some.mp hnested]
    | none =>
      have hstill : credentials (encryptLevel fernet draw payload) = none :=
        (credentials_encryptLevel fernet).trans hnested
      rw [encryptSensitive_none fernet hnested, decryptSensitive_none fernet hstill,
        get_decryptLevel_of_not_mem fernet credentials_not_sensitive,
        get_encryptLevel_of_not_mem fernet credentials_not_sensitive]
  · rw [get_decryptSensitive fernet hk, hget']
    split_ifs with hsensitive
    · rfl
    · rw [get_encryptSensitive fernet hk, hget, if_neg hsensitive]

theorem sealed_encryptSensitive_iff :
    Sealed fernet payload (encryptSensitive fernet draw nestedDraw payload) ↔ Sealable payload := by
  rw [← sealed_encryptLevel_iff fernet draw]
  constructor
  · intro h field hfield
    rw [← get_encryptSensitive fernet (ne_credentials hfield)]
    exact h field hfield
  · intro h field hfield
    rw [get_encryptSensitive fernet (ne_credentials hfield)]
    exact h field hfield

theorem storedSealed_iff : StoredSealed fernet draw nestedDraw payload ↔
    Sealable payload ∧ ∀ nested, credentials payload = some nested → Sealable nested := by
  constructor
  · rintro ⟨htop, hinner, -⟩
    refine ⟨(sealed_encryptSensitive_iff fernet).mp htop, ?_⟩
    intro nested hnested
    obtain ⟨out, hout, hsealed⟩ := hinner nested hnested
    rw [credentials_encryptSensitive fernet hnested] at hout
    obtain rfl := Option.some.inj hout
    exact (sealed_encryptLevel_iff fernet nestedDraw).mp hsealed
  · rintro ⟨htop, hinner⟩
    refine ⟨(sealed_encryptSensitive_iff fernet).mpr htop, ?_,
      decryptSensitive_encryptSensitive fernet htop hinner⟩
    intro nested hnested
    exact ⟨_, credentials_encryptSensitive fernet hnested,
      (sealed_encryptLevel_iff fernet nestedDraw).mpr (hinner nested hnested)⟩

theorem opened_decryptSensitive_iff :
    Opened fernet stored (decryptSensitive fernet stored) ↔ Readable fernet stored := by
  rw [← opened_decryptLevel_iff fernet]
  constructor
  · intro h field hfield
    rw [← get_decryptSensitive fernet (ne_credentials hfield)]
    exact h field hfield
  · intro h field hfield
    rw [get_decryptSensitive fernet (ne_credentials hfield)]
    exact h field hfield

theorem readApart_iff : ReadApart fernet stored ↔
    Readable fernet stored ∧ ∀ nested, credentials stored = some nested → Readable fernet nested := by
  constructor
  · rintro ⟨htop, hinner⟩
    refine ⟨(opened_decryptSensitive_iff fernet).mp htop, ?_⟩
    intro nested hnested
    obtain ⟨out, hout, hopened⟩ := hinner nested hnested
    rw [credentials_decryptSensitive fernet hnested] at hout
    obtain rfl := Option.some.inj hout
    exact (opened_decryptLevel_iff fernet).mp hopened
  · rintro ⟨htop, hinner⟩
    refine ⟨(opened_decryptSensitive_iff fernet).mpr htop, ?_⟩
    intro nested hnested
    exact ⟨_, credentials_decryptSensitive fernet hnested,
      (opened_decryptLevel_iff fernet).mpr (hinner nested hnested)⟩

/-- When the credentials of a payload are stored encrypted and read back, and when what can be
decrypted of a stored payload is. -/
theorem credentials_sealed_iff (draw nestedDraw : String → ν) (payload stored : Payload α) :
    (StoredSealed fernet draw nestedDraw payload ↔
      Sealable payload ∧ ∀ nested, credentials payload = some nested → Sealable nested) ∧
    (ReadApart fernet stored ↔ Readable fernet stored ∧
      ∀ nested, credentials stored = some nested → Readable fernet nested) :=
  ⟨storedSealed_iff fernet, readApart_iff fernet⟩

end Payload

/-! ### A password that begins like a ciphertext -/

/-- A code point as so many `A`, and a `B`; a `C` at the end of the text. -/
def unaryToken (plain : Text) : Text := plain.flatMap (fun c => List.replicate c 65 ++ [66]) ++ [67]

/-- Reads a token of which `count` letters `A` are read. -/
def readUnary (count : ℕ) : Text → Option Text
  | [] => none
  | c :: token =>
    if c = 65 then readUnary (count + 1) token
    else if c = 66 then (readUnary 0 token).map (count :: ·)
    else if c = 67 ∧ count = 0 ∧ token = [] then some []
    else none

theorem readUnary_replicate (count c : ℕ) (token : Text) :
    readUnary count (List.replicate c 65 ++ token) = readUnary (count + c) token := by
  induction c generalizing count with
  | zero => rfl
  | succ c ih =>
    rw [List.replicate_succ, List.cons_append, readUnary, if_pos rfl, ih]
    congr 1
    omega

theorem readUnary_token (plain : Text) : readUnary 0 (unaryToken plain) = some plain := by
  induction plain with
  | nil => rfl
  | cons c plain ih =>
    have htoken : unaryToken (c :: plain) = List.replicate c 65 ++ 66 :: unaryToken plain := by
      simp [unaryToken]
    rw [htoken, readUnary_replicate, readUnary, if_neg (by decide), if_pos rfl, ih, Nat.zero_add]
    rfl

theorem token_of_readUnary {count : ℕ} {token plain : Text} (h : readUnary count token = some plain) :
    List.replicate count 65 ++ token = unaryToken plain := by
  induction token generalizing count plain with
  | nil => cases h
  | cons c token ih =>
    rw [readUnary] at h
    split_ifs at h with hA hB hC
    · rw [← ih h, hA, List.replicate_succ']
      simp
    · obtain ⟨rest, hrest, rfl⟩ := Option.map_eq_some_iff.mp h
      have htoken : token = unaryToken rest := ih hrest
      rw [hB, htoken]
      simp [unaryToken]
    · obtain ⟨rfl, rfl, rfl⟩ := hC
      obtain rfl := Option.some.inj h
      rfl

/-- A cipher with tokens of ASCII letters. -/
def unary : Fernet Unit where
  encrypt _ := unaryToken
  decrypt := readUnary 0
  decrypt_encrypt _ := readUnary_token
  rejects token plain h := ⟨(), token_of_readUnary h⟩
  ascii n plain := by
    simp only [isAscii, unaryToken, List.all_eq_true, decide_eq_true_eq]
    intro c hc
    simp only [List.mem_append, List.mem_flatMap, List.mem_replicate, List.mem_singleton] at hc
    omega
  longer n plain := by
    induction plain with
    | nil => decide
    | cons c plain ih =>
      simp only [unaryToken, List.length_append, List.flatMap_cons, List.length_replicate,
        List.length_cons] at ih ⊢
      omega

/-- `fernet:pw`. -/
def markedPassword : Text := PREFIX ++ [112, 119]

/-- `fernet:é`. -/
def foreignPassword : Text := PREFIX ++ [233]

/-- A payload with one password. -/
def oneMarked : Payload Unit := ⟨[("password", .text markedPassword)], by decide⟩

/-- A stored payload with two passwords, of which the second is encrypted. -/
def oneForeign : Payload Unit :=
  ⟨[("password", .text foreignPassword),
    ("user_password", .text (PREFIX ++ unary.encrypt () [112, 119]))], by decide⟩

/-- A password that begins with `fernet:` is stored as it is, and one that goes on with more than
ASCII keeps another one from being decrypted. -/
theorem marked_password_in_clear :
    ¬ StoredSealed unary (fun _ => ()) (fun _ => ()) oneMarked ∧ ¬ ReadApart unary oneForeign := by
  constructor
  · intro h
    have hsealable := ((storedSealed_iff unary).mp h).1
    have hplain := hsealable "password" (by decide) markedPassword rfl (by decide)
    exact hplain.2 (List.prefix_append _ _)
  · intro h
    rcases ((readApart_iff unary).mp h).1 with hascii | hnone
    · have hforeign := hascii "password" (by decide) foreignPassword rfl (List.prefix_append _ _)
      revert hforeign
      decide
    · have hreads := hnone "user_password" (by decide) _ rfl (List.prefix_append _ _)
      rw [List.drop_left, unary.decrypt_encrypt] at hreads
      cases hreads

/-! ### A password at either level -/

def nestedPassword : Dict Unit := ⟨[("user_password", .text [49, 50])], by decide⟩

def twoLevels : Payload Unit :=
  ⟨[("password", .text [112, 119]), ("credentials", .other (.dict nestedPassword))], by decide⟩

/-- The payload with one of the two encrypted. -/
def halfStored : Payload Unit :=
  ⟨[("password", .text (PREFIX ++ unary.encrypt () [112, 119])),
    ("credentials", .other (.dict nestedPassword))], by decide⟩

section Only
variable {β ν : Type*} {data : Dict β} (only : Text)

theorem text_of_entries (h : ∀ entry ∈ data.entries, ∀ value, entry.2 = .text value → value = only)
    {field : String} {value : Text} (hvalue : data.get field = some (.text value)) : value = only :=
  h _ (OrderedDict.get_eq_some.mp hvalue) value rfl

theorem sealable_of_entries (h : ∀ entry ∈ data.entries, ∀ value, entry.2 = .text value → value = only)
    (hplain : encodable only = true ∧ ¬ PREFIX <+: only) : Sealable data := by
  intro field _ value hvalue _
  rw [text_of_entries only h hvalue]
  exact hplain

theorem readable_of_entries (fernet : Fernet ν)
    (h : ∀ entry ∈ data.entries, ∀ value, entry.2 = .text value → value = only)
    (hascii : PREFIX <+: only → isAscii (only.drop PREFIX.length) = true) : Readable fernet data := by
  refine .inl fun field _ value hvalue hmarked => ?_
  rw [text_of_entries only h hvalue] at hmarked ⊢
  exact hascii hmarked

end Only

theorem credentials_sealed_twoLevels : credentials twoLevels = some nestedPassword ∧
    StoredSealed unary (fun _ => ()) (fun _ => ()) twoLevels ∧ ReadApart unary halfStored := by
  obtain ⟨hstored, hread⟩ :=
    credentials_sealed_iff unary (fun _ => ()) (fun _ => ()) twoLevels halfStored
  have htop : Sealable twoLevels := sealable_of_entries [112, 119] (by simp [twoLevels]) (by decide)
  have hinner : Sealable nestedPassword := sealable_of_entries [49, 50] (by simp [nestedPassword]) (by decide)
  have htoken : isAscii ((PREFIX ++ unary.encrypt () [112, 119]).drop PREFIX.length) = true := by
    rw [List.drop_left]
    exact unary.ascii () _
  have hreadable : Readable unary halfStored :=
    readable_of_entries _ unary (by simp [halfStored]) fun _ => htoken
  have hreadable' : Readable unary nestedPassword :=
    readable_of_entries [49, 50] unary (by simp [nestedPassword]) (by decide)
  refine ⟨rfl, hstored.mpr ⟨htop, fun nested hnested => ?_⟩, hread.mpr ⟨hreadable, fun nested hnested => ?_⟩⟩
  · cases hnested
    exact hinner
  · cases hnested
    exact hreadable'

end UniversityHelper.Credentials
