import UniversityHelper.PythonText

/-! `get_ev`: the obfuscation of the fields of a progress report, and that it can be undone. -/
namespace UniversityHelper.ProgressCipher

variable {α : Type*}

/-- `hex(n)`. -/
def hex (n : ℕ) : List Char := '0' :: 'x' :: Nat.toDigits 16 n

/-- What is left of `cs` without `part`, `skip` characters of an occurrence being still to go. -/
def removeFrom (part : List Char) : ℕ → List Char → List Char
  | _, [] => []
  | skip + 1, _ :: cs => removeFrom part skip cs
  | 0, c :: cs =>
    if part <+: c :: cs then removeFrom part (part.length - 1) cs else c :: removeFrom part 0 cs

/-- `text.replace(part, "")`, for a part that is not empty. -/
def remove (part cs : List Char) : List Char := removeFrom part 0 cs

/-- `";".join(map(str, data))`. -/
def joined (str : α → String) (data : List α) : List Char :=
  (";".intercalate (data.map str)).toList

/-- The `i`th value of `_key_stream`; the generator of an empty key never yields. -/
def keyStream (key : List Char) (i : ℕ) : Option ℕ := (key[i % key.length]?).map Char.toNat

/-- What one character adds to `ev`. -/
def hexPair (n : ℕ) : List Char :=
  let tmp := remove "0x".toList (hex n)
  sliceFrom (if tmp.length < 2 then '0' :: tmp else tmp) (-4)

/-- The loop of `get_ev` from the `i`th character on; `none` where `next(stream)` does not return. -/
def evFrom (key : List Char) : ℕ → List Char → Option (List Char)
  | _, [] => some []
  | i, ch :: cs =>
    (keyStream key i).bind fun k => (evFrom key (i + 1) cs).map (hexPair (ch.toNat ^^^ k) ++ ·)

def defaultKey : String := "zzpttjd"

def getEv (str : α → String) (data : List α) (key : String) : Option String :=
  (evFrom key.toList 0 (joined str data)).map String.ofList

/-! ### Undoing it -/

def lowerHexDigits : List Char := "0123456789abcdef".toList

/-- The bytes that a text of lower-case hex digits writes, two digits each. -/
def decodeHex : List Char → Option (List ℕ)
  | [] => some []
  | [_] => none
  | high :: low :: rest =>
    if high ∈ lowerHexDigits ∧ low ∈ lowerHexDigits then
      (decodeHex rest).map ((lowerHexDigits.idxOf high * 16 + lowerHexDigits.idxOf low) :: ·)
    else none

/-- The bytes against the repeated key, from the `i`th position of it on. -/
def xorKey (key : List Char) : ℕ → List ℕ → List Char
  | _, [] => []
  | i, byte :: bytes => Char.ofNat (byte ^^^ (keyStream key i).getD 0) :: xorKey key (i + 1) bytes

def Latin (cs : List Char) : Prop := ∀ c ∈ cs, c.toNat < 0x100

variable {key cs ev : List Char} {m n i : ℕ}

theorem toDigits_byte (h : n < 0x100) :
    Nat.toDigits 16 n = if n < 16 then [n.digitChar] else [(n / 16).digitChar, (n % 16).digitChar] := by
  rw [Nat.toDigits_eq_if (by decide)]
  split_ifs with hsmall
  · rfl
  · rw [Nat.toDigits_of_lt_base (by omega)]
    rfl

theorem digitChar_mem (h : n < 16) : n.digitChar ∈ lowerHexDigits := by
  interval_cases n <;> decide

theorem idxOf_digitChar (h : n < 16) : lowerHexDigits.idxOf n.digitChar = n := by
  interval_cases n <;> decide

theorem digitChar_ne_x (h : n < 16) : n.digitChar ≠ 'x' := by
  interval_cases n <;> decide

/-- A part is not found where one of its characters is missing. -/
theorem removeFrom_absent {part : List Char} {x : Char} (hx : x ∈ part) (h : x ∉ cs) :
    removeFrom part 0 cs = cs := by
  induction cs with
  | nil => rfl
  | cons c cs ih =>
    have hnot : ¬ part <+: c :: cs := fun hpart => h (hpart.subset hx)
    rw [removeFrom, if_neg hnot, ih fun hmem => h (List.mem_cons_of_mem c hmem)]

theorem remove_hex (h : n < 0x100) : remove "0x".toList (hex n) = Nat.toDigits 16 n := by
  have habsent : 'x' ∉ Nat.toDigits 16 n := by
    rw [toDigits_byte h]
    split_ifs with hsmall
    · exact fun hmem => digitChar_ne_x hsmall (List.mem_singleton.mp hmem).symm
    · intro hmem
      rcases List.mem_cons.mp hmem with hhigh | hlow
      · exact digitChar_ne_x (by omega) hhigh.symm
      · exact digitChar_ne_x (by omega) (List.mem_singleton.mp hlow).symm
  have hstart : "0x".toList <+: '0' :: 'x' :: Nat.toDigits 16 n := ⟨Nat.toDigits 16 n, rfl⟩
  rw [remove, hex, removeFrom, if_pos hstart]
  exact removeFrom_absent (x := 'x') (by decide) habsent

/-- Every byte makes two digits, zero included. -/
theorem hexPair_byte (h : n < 0x100) :
    hexPair n = [(n / 16).digitChar, (n % 16).digitChar] := by
  rw [hexPair, remove_hex h, toDigits_byte h]
  by_cases hsmall : n < 16
  · have hhigh : n / 16 = 0 := by omega
    have hlow : n % 16 = n := by omega
    rw [if_pos hsmall, hhigh, hlow]
    rfl
  · rw [if_neg hsmall]
    rfl

theorem decodeHex_pair (h : n < 0x100) (rest : List Char) :
    decodeHex (hexPair n ++ rest) = (decodeHex rest).map (n :: ·) := by
  have hhigh : n / 16 < 16 := by omega
  have hlow : n % 16 < 16 := by omega
  rw [hexPair_byte h]
  simp only [List.cons_append, List.nil_append, decodeHex]
  rw [if_pos ⟨digitChar_mem hhigh, digitChar_mem hlow⟩, idxOf_digitChar hhigh, idxOf_digitChar hlow,
    Nat.div_add_mod']

theorem keyStream_byte (hkey : key ≠ []) (hlatin : Latin key) (i : ℕ) :
    ∃ k, keyStream key i = some k ∧ k < 0x100 := by
  have hlt : i % key.length < key.length := Nat.mod_lt _ (List.length_pos_iff.mpr hkey)
  refine ⟨_, by rw [keyStream, List.getElem?_eq_getElem hlt, Option.map_some], ?_⟩
  exact hlatin _ (List.getElem_mem hlt)

/-- The digits of the characters from the `i`th on, and what they stand for. -/
theorem evFrom_undone (hkey : key ≠ []) (hlatin : Latin key) (hcs : Latin cs) :
    ∃ ev bytes, evFrom key i cs = some ev ∧ ev.length = 2 * cs.length ∧
      (∀ c ∈ ev, c ∈ lowerHexDigits) ∧ decodeHex ev = some bytes ∧ xorKey key i bytes = cs := by
  induction cs generalizing i with
  | nil => exact ⟨[], [], rfl, rfl, by simp, rfl, rfl⟩
  | cons ch cs ih =>
    obtain ⟨k, hk, hbyte⟩ := keyStream_byte hkey hlatin i
    obtain ⟨ev, bytes, hev, hlength, hdigits, hdecode, hundo⟩ :=
      ih (i := i + 1) fun c hc => hcs c (List.mem_cons_of_mem ch hc)
    have hxor : ch.toNat ^^^ k < 0x100 :=
      Nat.xor_lt_two_pow (n := 8) (hcs ch List.mem_cons_self) hbyte
    refine ⟨hexPair (ch.toNat ^^^ k) ++ ev, (ch.toNat ^^^ k) :: bytes, ?_, ?_, ?_, ?_, ?_⟩
    · rw [evFrom, hk, hev]
      rfl
    · rw [List.length_append, hlength, hexPair_byte hxor, List.length_cons]
      simp only [List.length_cons, List.length_nil]
      omega
    · intro c hc
      rcases List.mem_append.mp hc with hpair | hrest
      · rw [hexPair_byte hxor] at hpair
        rcases List.mem_cons.mp hpair with rfl | hlast
        · exact digitChar_mem (by omega)
        · rw [List.mem_singleton.mp hlast]
          exact digitChar_mem (by omega)
      · exact hdigits c hrest
    · rw [decodeHex_pair hxor, hdecode]
      rfl
    · rw [xorKey, hk, hundo, Option.getD_some, Nat.xor_xor_cancel_right, Char.ofNat_toNat]

/-- The value is two lower-case hex digits for each character, and its bytes against the repeated
key are the joined text. -/
structure Undone (text : List Char) (key : String) (ev : String) : Prop where
  length : ev.toList.length = 2 * text.length
  digits : ∀ c ∈ ev.toList, c ∈ lowerHexDigits
  text : (decodeHex ev.toList).map (xorKey key.toList 0) = some text

theorem get_ev_undone (str : α → String) (key : String) (hkey : key ≠ "") (hlatin : Latin key.toList) :
    (∀ data, Latin (joined str data) →
      ∃ ev, getEv str data key = some ev ∧ Undone (joined str data) key ev) ∧
    ∀ data data', Latin (joined str data) → Latin (joined str data') →
      joined str data ≠ joined str data' → getEv str data key ≠ getEv str data' key := by
  have hne : key.toList ≠ [] := by simpa using hkey
  have hundone : ∀ data, Latin (joined str data) →
      ∃ ev, getEv str data key = some ev ∧ Undone (joined str data) key ev := by
    intro data hdata
    obtain ⟨ev, bytes, hev, hlength, hdigits, hdecode, hundo⟩ := evFrom_undone (i := 0) hne hlatin hdata
    refine ⟨String.ofList ev, by rw [getEv, hev, Option.map_some], ?_⟩
    refine ⟨?_, ?_, ?_⟩
    · rw [String.toList_ofList, hlength]
    · rw [String.toList_ofList]
      exact hdigits
    · rw [String.toList_ofList, hdecode, Option.map_some, hundo]
  refine ⟨hundone, fun data data' hdata hdata' hdiffer hsame => hdiffer ?_⟩
  obtain ⟨ev, hev, htext⟩ := hundone data hdata
  obtain ⟨ev', hev', htext'⟩ := hundone data' hdata'
  have heq : ev = ev' := Option.some.inj (hev.symm.trans (hsame.trans hev'))
  subst heq
  exact Option.some.inj (htext.text.symm.trans htext'.text)

/-- The fields of a report against the key of `saveDatabaseIntervalTime`. -/
theorem get_ev_undone_defaultKey :
    ∃ ev, getEv id ["1", "0", "0:00:05"] defaultKey = some ev ∧
      Undone (joined id ["1", "0", "0:00:05"]) defaultKey ev := by
  have hlatin : Latin defaultKey.toList := by
    simp [Latin, defaultKey]
  refine (get_ev_undone id defaultKey (by decide) hlatin).1 ["1", "0", "0:00:05"] ?_
  simp [Latin, joined]

end UniversityHelper.ProgressCipher
