import UniversityHelper.OrderedDict

/-! The encryption of credentials at rest: `credential_crypto` with a configured key, and the two
functions of the task store that apply it to a payload. -/
namespace UniversityHelper.Credentials

/-- A Python string as its code points. -/
abbrev Text := List ℕ

/-- Whether `text.encode("utf-8")` works: no code point is a surrogate. -/
def encodable (text : Text) : Bool := text.all fun c => ¬ (0xD800 ≤ c ∧ c ≤ 0xDFFF)

/-- Whether `text.encode("ascii")` works. -/
def isAscii (text : Text) : Bool := text.all fun c => c < 128

/-- `_PREFIX`, `fernet:`. -/
def PREFIX : Text := [102, 101, 114, 110, 101, 116, 58]

/-- `cryptography.fernet.Fernet` with one key, on the texts behind the bytes; `ν` are the times and
initialisation vectors that it draws. Decrypting gives back what was encrypted and rejects any
other token; a token is base64 text of more bytes than the text has. -/
structure Fernet (ν : Type*) where
  encrypt : ν → Text → Text
  decrypt : Text → Option Text
  decrypt_encrypt : ∀ n plain, decrypt (encrypt n plain) = some plain
  rejects : ∀ token plain, decrypt token = some plain → ∃ n, token = encrypt n plain
  ascii : ∀ n plain, isAscii (encrypt n plain) = true
  longer : ∀ n plain, plain.length < (encrypt n plain).length

/-- What `decrypt_str` raises: `CredentialCryptoError` for an `InvalidToken`, and the error of
`encode("ascii")`, which it does not catch. -/
inductive DecryptError
  | credentialCrypto
  | unicodeEncode
  deriving DecidableEq

section Texts
variable {ν : Type*} (fernet : Fernet ν)

/-- `encrypt_str`; `none` is the error of `encode("utf-8")`. -/
def encryptStr (n : ν) (plain : Text) : Option Text :=
  if plain = [] then some plain
  else if PREFIX <+: plain then some plain
  else if encodable plain then some (PREFIX ++ fernet.encrypt n plain)
  else none

def decryptStr (value : Text) : Except DecryptError Text :=
  if value = [] then .ok value
  else if ¬ PREFIX <+: value then .ok value
  else
    let token := value.drop PREFIX.length
    if ¬ isAscii token then .error .unicodeEncode
    else
      match fernet.decrypt token with
      | some plain => .ok plain
      | none => .error .credentialCrypto

end Texts

/-- A value of a payload: a string, or anything else. -/
inductive Value (β : Type*)
  | text (text : Text)
  | other (value : β)

abbrev Dict (β : Type*) := OrderedDict String (Value β)

section Fields
variable {β : Type*}

/-- One round of the loop that the functions for the fields of a dictionary share: a field that
holds a string gets another one in its place. -/
def replaceField (replace : String → Text → Option Text) (out : Dict β) (field : String) :
    Option (Dict β) :=
  match out.get field with
  | some (.text value) => (replace field value).map fun text => out.set field (.text text)
  | _ => some out

def replaceFields (replace : String → Text → Option Text) (data : Dict β) (fields : List String) :
    Option (Dict β) :=
  fields.foldlM (replaceField replace) data

variable {ν : Type*} (fernet : Fernet ν)

def encryptDictFields (draw : String → ν) (data : Dict β) (fields : List String) : Option (Dict β) :=
  replaceFields (fun field value => encryptStr fernet (draw field) value) data fields

/-- What `decrypt_dict_fields` puts in the place of a string: it catches `CredentialCryptoError`
alone, and leaves such a field as it is. -/
def openStr (value : Text) : Option Text :=
  match decryptStr fernet value with
  | .ok plain => some plain
  | .error .credentialCrypto => some value
  | .error .unicodeEncode => none

def decryptDictFields (data : Dict β) (fields : List String) : Option (Dict β) :=
  replaceFields (fun _ value => openStr fernet value) data fields

def sensitiveFields : List String := ["password", "user_password", "third_party_password"]

def sensitiveContainers : List String := ["credentials"]

/-- `encrypt_dict_fields`, or after an exception the copy without the sensitive fields. -/
def encryptLevel (draw : String → ν) (data : Dict β) : Dict β :=
  (encryptDictFields fernet draw data sensitiveFields).getD
    (sensitiveFields.foldl OrderedDict.erase data)

/-- `decrypt_dict_fields`, or after an exception the dictionary as it is. -/
def decryptLevel (data : Dict β) : Dict β :=
  (decryptDictFields fernet data sensitiveFields).getD data

end Fields

/-- What a payload holds besides strings: a dictionary, or anything else. -/
inductive Nested (α : Type*)
  | dict (data : Dict α)
  | other (value : α)

abbrev Payload (α : Type*) := Dict (Nested α)

section Payload
variable {α ν : Type*} (fernet : Fernet ν)

/-- Applies a function to the dictionary at `container`, where there is one. -/
def onContainer (f : Dict α → Dict α) (payload : Payload α) (container : String) : Payload α :=
  match payload.get container with
  | some (.other (.dict nested)) => payload.set container (.other (.dict (f nested)))
  | _ => payload

/-- `_encrypt_sensitive`; `draw` and `nestedDraw` are what Fernet draws for each field. -/
def encryptSensitive (draw nestedDraw : String → ν) (payload : Payload α) : Payload α :=
  sensitiveContainers.foldl (onContainer (encryptLevel fernet nestedDraw))
    (encryptLevel fernet draw payload)

def decryptSensitive (payload : Payload α) : Payload α :=
  sensitiveContainers.foldl (onContainer (decryptLevel fernet)) (decryptLevel fernet payload)

end Payload

/-! ### What the loops do to a dictionary -/

section Replace
variable {β : Type*} {replace : String → Text → Option Text} {data : Dict β}
variable {field : String} {fields : List String}

/-- What a loop that runs through makes of a value. -/
def swap (replace : Text → Option Text) : Value β → Value β
  | .text value => .text ((replace value).getD value)
  | .other value => .other value

theorem replaceField_runs
    (h : ∀ value, data.get field = some (.text value) → replace field value ≠ none) :
    ∃ out, replaceField replace data field = some out ∧ out.keys = data.keys ∧
      ∀ k, out.get k = if k = field then (data.get k).map (swap (replace k)) else data.get k := by
  unfold replaceField
  split
  · next value hvalue =>
    obtain ⟨text, htext⟩ := Option.ne_none_iff_exists'.mp (h value hvalue)
    rw [htext]
    refine ⟨_, rfl, OrderedDict.keys_set_of_known hvalue _, ?_⟩
    intro k
    rw [OrderedDict.get_set]
    by_cases hk : k = field
    · subst hk
      rw [if_pos rfl, if_pos rfl, hvalue]
      simp [swap, htext]
    · rw [if_neg hk, if_neg hk]
  · next hother =>
    refine ⟨data, rfl, rfl, ?_⟩
    intro k
    split_ifs with hk
    · subst hk
      cases hget : data.get k with
      | none => rfl
      | some v =>
        cases v with
        | text value => exact absurd hget (hother value)
        | other value => rfl
    · rfl

theorem replaceFields_runs (nodup : fields.Nodup)
    (h : ∀ field ∈ fields, ∀ value, data.get field = some (.text value) → replace field value ≠ none) :
    ∃ out, replaceFields replace data fields = some out ∧ out.keys = data.keys ∧
      ∀ k, out.get k = if k ∈ fields then (data.get k).map (swap (replace k)) else data.get k := by
  induction fields generalizing data with
  | nil => exact ⟨data, rfl, rfl, fun k => by simp⟩
  | cons field fields ih =>
    obtain ⟨hfield, hfields⟩ := List.nodup_cons.mp nodup
    obtain ⟨first, hfirst, hkeys, hget⟩ := replaceField_runs (h field List.mem_cons_self)
    have hrest : ∀ f ∈ fields, ∀ value, first.get f = some (.text value) → replace f value ≠ none := by
      intro f hf value hvalue
      have hne : f ≠ field := fun heq => hfield (heq ▸ hf)
      rw [hget, if_neg hne] at hvalue
      exact h f (List.mem_cons_of_mem _ hf) value hvalue
    obtain ⟨out, hout, hkeys', hget'⟩ := ih hfields hrest
    refine ⟨out, ?_, hkeys'.trans hkeys, ?_⟩
    · rw [replaceFields, List.foldlM_cons, hfirst]
      exact hout
    · intro k
      rw [hget', hget]
      by_cases hk : k = field
      · subst hk
        simp [hfield]
      · simp [hk]

theorem replaceFields_raises (nodup : fields.Nodup) (hfield : field ∈ fields) {value : Text}
    (hvalue : data.get field = some (.text value)) (hraises : replace field value = none) :
    replaceFields replace data fields = none := by
  induction fields generalizing data with
  | nil => cases hfield
  | cons first fields ih =>
    obtain ⟨hfirst, hfields⟩ := List.nodup_cons.mp nodup
    rw [replaceFields, List.foldlM_cons]
    by_cases hsame : field = first
    · subst hsame
      have hnone : replaceField replace data field = none := by
        simp only [replaceField, hvalue, hraises, Option.map_none]
      rw [hnone]
      rfl
    · have hrest : field ∈ fields := (List.mem_cons.mp hfield).resolve_left hsame
      by_cases hruns : ∀ value, data.get first = some (.text value) → replace first value ≠ none
      · obtain ⟨out, hout, -, hget⟩ := replaceField_runs hruns
        rw [hout]
        apply ih hfields hrest
        rw [hget, if_neg hsame, hvalue]
      · push Not at hruns
        obtain ⟨other, hother, hnone⟩ := hruns
        have hstop : replaceField replace data first = none := by
          simp only [replaceField, hother, hnone, Option.map_none]
        rw [hstop]
        rfl

theorem get_foldl_erase (k : String) :
    (fields.foldl OrderedDict.erase data).get k = if k ∈ fields then none else data.get k := by
  induction fields generalizing data with
  | nil => simp
  | cons field fields ih =>
    rw [List.foldl_cons, ih, OrderedDict.get_erase]
    by_cases hk : k = field
    · simp [hk]
    · simp [hk]

end Replace
end UniversityHelper.Credentials
