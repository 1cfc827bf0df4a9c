import UniversityHelper.Quiz
import UniversityHelper.Ranking

/-! What `handle_question` answers to a question whose options are told apart by their first
letters. -/
namespace UniversityHelper.Quiz
open AnswerBank

structure OptionLine where
  letter : Char
  rest : String

def OptionLine.text (o : OptionLine) : String := String.ofList (o.letter :: o.rest.toList)

/-- The options of a question; a letter is in particular not white space. -/
structure Options where
  lines : List OptionLine
  two : 2 ≤ lines.length
  visible : ∀ o ∈ lines, isSpace o.letter = false
  oneLine : ∀ o ∈ lines, '\n' ∉ o.rest.toList
  distinct : (lines.map OptionLine.letter).Nodup

namespace Options

def text (q : Options) : String := joinLines (q.lines.map OptionLine.text)
def letters (q : Options) : List Char := q.lines.map OptionLine.letter

theorem plain (q : Options) : ∀ line ∈ q.lines.map OptionLine.text, '\n' ∉ line.toList := by
  intro line hline
  obtain ⟨o, ho, rfl⟩ := List.mem_map.mp hline
  rw [OptionLine.text, String.toList_ofList, List.mem_cons, not_or]
  refine ⟨?_, q.oneLine o ho⟩
  intro hnewline
  have hvisible := q.visible o ho
  rw [← hnewline] at hvisible
  revert hvisible
  decide

theorem lines_ne_nil (q : Options) : q.lines ≠ [] := by
  have htwo := q.two
  exact List.ne_nil_of_length_pos (by omega)

theorem splitText_text (q : Options) : splitText q.text '\n' = q.lines.map OptionLine.text := by
  apply splitText_joinLines _ q.plain
  intro hnil
  exact q.lines_ne_nil (List.map_eq_nil_iff.mp hnil)

theorem cut_text (q : Options) :
    multiCut q.text = some (q.lines.map fun o => strip o.text) := by
  rw [multiCut, text, cut_joinLines _ q.plain]
  · rw [List.map_map]
    rfl
  · intro line hline hblank
    obtain ⟨o, ho, rfl⟩ := List.mem_map.mp hline
    have hfirst := first_strip (q.visible o ho) o.rest.toList
    rw [OptionLine.text] at hblank
    rw [hblank] at hfirst
    cases hfirst
  · rw [List.length_map]
    exact q.two

theorem text_ne_empty (q : Options) : q.text ≠ "" := by
  intro hempty
  have hcut := q.cut_text
  rw [hempty] at hcut
  cases hcut

theorem first_line {q : Options} {o : OptionLine} (ho : o ∈ q.lines) :
    first (strip o.text) = [o.letter] := first_strip (q.visible o ho) o.rest.toList

theorem flatMap_first {q : Options} {l : List OptionLine} (h : ∀ o ∈ l, o ∈ q.lines) :
    (l.map fun o => strip o.text).flatMap first = l.map OptionLine.letter := by
  induction l with
  | nil => rfl
  | cons o l ih =>
    have hfirst := first_line (h o List.mem_cons_self)
    rw [List.map_cons, List.flatMap_cons, ih fun x hx => h x (List.mem_cons_of_mem o hx), hfirst]
    rfl

theorem flatMap_lines (q : Options) :
    (q.lines.map fun o => strip o.text).flatMap first = q.letters :=
  flatMap_first fun _ ho => ho

end Options

section Single

/-- The option that a cleaned answer is found in. -/
def OptionLine.holds (res : String) (o : OptionLine) : Bool :=
  isSubsequence (cleanRes res).toList (strip o.text).toList

theorem answerSingle_options (u : Unicode) (q : Options) (res : String) :
    answerSingle u (q.lines.map fun o => strip o.text) res =
      if (lettersFiltered u res q.letters).length = 1 then
        String.ofList (lettersFiltered u res q.letters)
      else match q.lines.find? (OptionLine.holds res) with
        | none => ""
        | some o => String.ofList [o.letter] := by
  have hletters := q.flatMap_lines
  have hcomp : ((fun o : String => isSubsequence (cleanRes res).toList o.toList) ∘
      fun o : OptionLine => strip o.text) = OptionLine.holds res := by
    funext o
    rw [OptionLine.holds, Function.comp_apply]
  rw [answerSingle, hletters, List.find?_map, hcomp]
  split_ifs
  · rfl
  · cases hfound : q.lines.find? (OptionLine.holds res) with
    | none => rw [Option.map_none]
    | some o =>
      rw [Option.map_some]
      exact congrArg String.ofList (q.first_line (List.mem_of_find?_eq_some hfound))

theorem answer_single (u : Unicode) (tiku : Tiku) (ch : Chance) (q : Options) {res : String}
    (hres : res ≠ "") :
    (handleQuestion u tiku ch .single q.text (some res)).2 =
      if answerSingle u (q.lines.map fun o => strip o.text) res = "" then
        randomAnswer ch .single q.text
      else answerSingle u (q.lines.map fun o => strip o.text) res := by
  have hgiven : (some res).filter (fun answer => answer ≠ "") = some res := by simp [hres]
  rw [handleQuestion, hgiven]
  simp only [answerFrom, q.cut_text]
  split_ifs <;> rfl

/-- `'A'` for the first option. -/
def letter (k : ℕ) : Char := Char.ofNat (65 + k)

theorem letter_visible : ∀ k < 26, isSpace (letter k) = false := by decide

theorem letter_injective : ∀ i < 26, ∀ j < 26, letter i = letter j → i = j := by decide

/-- The options `'A. text'`, `'B. text'` and so on. -/
structure LetteredOptions where
  texts : List String
  two : 2 ≤ texts.length
  lettered : texts.length ≤ 26
  oneLine : ∀ text ∈ texts, '\n' ∉ text.toList
  distinct : texts.Nodup

namespace LetteredOptions

def line (k : ℕ) (text : String) : OptionLine := ⟨letter k, String.ofList ('.' :: ' ' :: text.toList)⟩

def options (q : LetteredOptions) : Options where
  lines := q.texts.mapIdx line
  two := by
    rw [List.length_mapIdx]
    exact q.two
  visible := by
    intro o ho
    obtain ⟨k, hk, rfl⟩ := List.mem_mapIdx.mp ho
    exact letter_visible k (hk.trans_le q.lettered)
  oneLine := by
    intro o ho
    obtain ⟨k, hk, rfl⟩ := List.mem_mapIdx.mp ho
    have hline := q.oneLine _ (List.getElem_mem hk)
    simpa [line] using hline
  distinct := by
    rw [List.nodup_iff_injective_get]
    intro i j hij
    have hi : i.val < 26 := by
      have := i.isLt
      have := q.lettered
      simp only [List.length_map, List.length_mapIdx] at *
      omega
    have hj : j.val < 26 := by
      have := j.isLt
      have := q.lettered
      simp only [List.length_map, List.length_mapIdx] at *
      omega
    have hletter : letter i.val = letter j.val := by simpa [line] using hij
    exact Fin.ext (letter_injective _ hi _ hj hletter)

/-- When the text of option `k` as the answer selects option `k`: the only letter of an option in
it is that of `k`, or it has none or several and is found in no earlier option. -/
def Selects (u : Unicode) (q : LetteredOptions) (k : Fin q.texts.length) : Prop :=
  let text := q.texts[k]
  let letters := lettersFiltered u text q.options.letters
  text ≠ "" ∧
    (letters = [letter k] ∨ letters.length ≠ 1 ∧ ∀ j : Fin q.texts.length, j < k →
      ¬ (cleanRes text).toList.Sublist (line j q.texts[j]).text.toList)

theorem holds_iff (res : String) (k : ℕ) (text : String) :
    (line k text).holds res = true ↔ (cleanRes res).toList.Sublist (line k text).text.toList :=
  cleanRes_strip_iff res _

theorem holds_self (k : ℕ) (text : String) : (line k text).holds text = true := by
  rw [holds_iff, OptionLine.text, String.toList_ofList, line, String.toList_ofList]
  apply (cleanRes_sublist text).trans
  exact (List.sublist_cons_self _ _).trans
    ((List.sublist_cons_self _ _).trans (List.sublist_cons_self _ _))

/-- The first option the text of option `k` is found in is option `k` or an earlier one. -/
theorem find_line (q : LetteredOptions) (k : Fin q.texts.length) :
    ∃ j : Fin q.texts.length, q.options.lines.find? (OptionLine.holds q.texts[k]) =
        some (line j q.texts[j]) ∧
      (j = k ↔ ∀ i : Fin q.texts.length, i < k →
        ¬ (cleanRes q.texts[k]).toList.Sublist (line i q.texts[i]).text.toList) := by
  cases hfound : q.options.lines.find? (OptionLine.holds q.texts[k]) with
  | none =>
    have hnone := List.find?_eq_none.mp hfound (line k q.texts[k])
      (List.mem_mapIdx.mpr ⟨k, k.isLt, rfl⟩)
    exact absurd (holds_self _ _) hnone
  | some o =>
    obtain ⟨hholds, j, hj, rfl, hfirst⟩ := List.find?_eq_some_iff_getElem.mp hfound
    have hj' : j < q.texts.length := by simpa [options] using hj
    have hline : ∀ i (hi : i < q.texts.length) (hlines : i < q.options.lines.length),
        q.options.lines[i] = line i q.texts[i] := fun i hi hlines => List.getElem_mapIdx
    have hearlier : ∀ i (hi : i < q.texts.length), i < j →
        ¬ (cleanRes q.texts[k]).toList.Sublist (line i q.texts[i]).text.toList := by
      intro i hi hij hsub
      have hnot := hfirst i hij
      rw [hline i hi (hij.trans hj), (holds_iff _ _ _).mpr hsub] at hnot
      cases hnot
    rw [hline j hj' hj, holds_iff] at hholds
    refine ⟨⟨j, hj'⟩, congrArg some (hline j hj' hj), ?_⟩
    constructor
    · rintro rfl i hi
      exact hearlier i i.isLt hi
    · intro hnone
      by_contra hne
      have hle : j ≤ k := by
        by_contra hgt
        have hself := holds_self k q.texts[k]
        rw [holds_iff] at hself
        exact hearlier k k.isLt (not_le.mp hgt) hself
      have hlt : j < k := lt_of_le_of_ne hle fun h => hne (Fin.ext h)
      exact hnone ⟨j, hj'⟩ hlt hholds

theorem random_pick (q : LetteredOptions) {i : ℕ} (hi : i < q.texts.length) :
    randomAnswer (Chance.pick i) .single q.options.text = String.ofList [letter i] := by
  have hlength : i < (q.options.lines.map OptionLine.text).length := by simpa [options] using hi
  rw [randomAnswer, if_neg q.options.text_ne_empty]
  simp only [Options.splitText_text, Chance.pick, if_pos hlength]
  rw [List.getD_eq_getElem _ _ hlength]
  simp [options, line, OptionLine.text, first]

theorem option_text_selects (u : Unicode) (tiku : Tiku) (q : LetteredOptions)
    (k : Fin q.texts.length) :
    (∀ ch, (handleQuestion u tiku ch .single q.options.text (some q.texts[k])).2 =
      String.ofList [letter k]) ↔ q.Selects u k := by
  have hk : (k : ℕ) < 26 := k.isLt.trans_le q.lettered
  by_cases hempty : q.texts[k] = ""
  · constructor
    · intro h
      have hrandom : ∀ i (hi : i < q.texts.length), i = k := by
        intro i hi
        have hpicked := h (Chance.pick i)
        rw [hempty] at hpicked
        have hletters : String.ofList [letter i] = String.ofList [letter k] :=
          (random_pick q hi).symm.trans hpicked
        have hletter : letter i = letter k := by simpa using hletters
        exact letter_injective i (hi.trans_le q.lettered) k hk hletter
      have htwo := q.two
      have hzero := hrandom 0 (by omega)
      have hone := hrandom 1 (by omega)
      omega
    · rintro ⟨hne, -⟩
      exact absurd hempty hne
  · have hcover : ∀ letters, letters ≠ [] →
        answerSingle u (q.options.lines.map fun o => strip o.text) q.texts[k] = String.ofList letters →
        ((∀ ch, (handleQuestion u tiku ch .single q.options.text (some q.texts[k])).2 =
          String.ofList [letter k]) ↔ letters = [letter k]) := by
      intro letters hletters hanswer
      have hne : String.ofList letters ≠ "" := by simpa using hletters
      simp only [answer_single u tiku _ q.options hempty, hanswer, if_neg hne, String.ofList_inj]
      exact ⟨fun h => h (Chance.pick 0), fun h _ => h⟩
    have hanswer := answerSingle_options u q.options q.texts[k]
    rw [Selects, and_iff_right hempty]
    by_cases hone : (lettersFiltered u q.texts[k] q.options.letters).length = 1
    · rw [if_pos hone] at hanswer
      rw [hcover _ (List.ne_nil_of_length_pos (by omega)) hanswer]
      constructor
      · exact Or.inl
      · rintro (hletters | ⟨hnot, -⟩)
        · exact hletters
        · exact absurd hone hnot
    · obtain ⟨j, hfound, hfirst⟩ := q.find_line k
      rw [if_neg hone, hfound] at hanswer
      rw [hcover [letter j] (by simp) hanswer]
      have hsame : [letter j] = [letter k] ↔ j = k := by
        rw [List.cons.injEq, and_iff_left rfl]
        constructor
        · intro hletter
          exact Fin.ext (letter_injective j (j.isLt.trans_le q.lettered) k hk hletter)
        · rintro rfl
          rfl
      rw [hsame, hfirst]
      constructor
      · exact fun h => Or.inr ⟨hone, h⟩
      · rintro (hletters | ⟨-, h⟩)
        · exact absurd (by rw [hletters]; rfl) hone
        · exact h

def universities : LetteredOptions where
  texts := ["上海交通大学", "上海大学"]
  two := by decide
  lettered := by decide
  oneLine := by decide
  distinct := by decide

theorem contained_text_misread : universities.texts[1] = "上海大学" ∧ letter 1 = 'B' ∧
    ∀ tiku ch, handleQuestion chineseAndLatin tiku ch .single universities.options.text
      (some "上海大学") = (.cover, "A") :=
  ⟨rfl, rfl, fun _ _ => rfl⟩

end LetteredOptions
end Single

section Multiple

/-- The letters of an answer, in strictly increasing order, are letters of options. -/
def StrictlyFrom (letters : List Char) (answer : String) : Prop :=
  answer.toList.Pairwise (· < ·) ∧ ∀ c ∈ answer.toList, c ∈ letters

theorem strictlyFrom_sortedText {chosen letters : List Char} (h : ∀ c ∈ chosen, c ∈ letters) :
    StrictlyFrom letters (sortedText chosen) ↔ chosen.Nodup := by
  have hperm := List.perm_insertionSort (· ≤ ·) chosen
  rw [StrictlyFrom, sortedText, String.toList_ofList]
  constructor
  · rintro ⟨hsorted, -⟩
    exact hperm.nodup_iff.mp (hsorted.imp fun hlt => ne_of_lt hlt)
  · intro hnodup
    exact ⟨sorted_insertionSort_of_nodup hnodup, fun c hc => h c (hperm.mem_iff.mp hc)⟩

theorem uniqueLetters_foldl (letters unique : List Char) (h : unique.Nodup) :
    (letters.foldl (fun unique c => if c ∈ unique then unique else unique ++ [c]) unique).Nodup ∧
      ∀ c, c ∈ letters.foldl (fun unique c => if c ∈ unique then unique else unique ++ [c]) unique ↔
        c ∈ unique ∨ c ∈ letters := by
  induction letters generalizing unique with
  | nil => simp [h]
  | cons d letters ih =>
    rw [List.foldl_cons]
    split_ifs with hd
    · refine ⟨(ih unique h).1, fun c => ?_⟩
      rw [(ih unique h).2, List.mem_cons]
      constructor
      · rintro (hold | hnew)
        · exact .inl hold
        · exact .inr (.inr hnew)
      · rintro (hold | rfl | hnew)
        · exact .inl hold
        · exact .inl hd
        · exact .inr hnew
    · have hnodup : (unique ++ [d]).Nodup := by
        rw [List.nodup_append]
        refine ⟨h, List.nodup_singleton d, ?_⟩
        rintro a ha b hb rfl
        rw [List.mem_singleton.mp hb] at ha
        exact hd ha
      refine ⟨(ih _ hnodup).1, fun c => ?_⟩
      rw [(ih _ hnodup).2, List.mem_append, List.mem_singleton, List.mem_cons, or_assoc]

theorem nodup_uniqueLetters (letters : List Char) : (uniqueLetters letters).Nodup :=
  (uniqueLetters_foldl letters [] List.nodup_nil).1

theorem mem_uniqueLetters {letters : List Char} {c : Char} :
    c ∈ uniqueLetters letters ↔ c ∈ letters := by
  rw [uniqueLetters, (uniqueLetters_foldl letters [] List.nodup_nil).2]
  simp

theorem selectCount_le (ch : Chance) (available : ℕ) : selectCount ch available ≤ available := by
  rw [selectCount]
  split_ifs with hfew
  · exact le_rfl
  · have hle : min 2 available ≤ min 4 available := by omega
    have hcount := (ch.count_mem _ _ hle).2
    omega

/-- A random answer names a sample of the options, none of them twice. -/
theorem random_strict (ch : Chance) (q : Options) :
    StrictlyFrom q.letters (randomAnswer ch .multiple q.text) := by
  rw [randomAnswer, if_neg q.text_ne_empty]
  simp only [q.cut_text]
  have hall := q.flatMap_lines
  generalize (q.lines.map fun o => strip o.text) = stripped at hall ⊢
  obtain ⟨drawn, hperm, hsublist⟩ := ch.sample_subperm stripped _ (selectCount_le ch stripped.length)
  have hletters := hsublist.flatMap first
  rw [hall] at hletters
  have hnodup : (drawn.flatMap first).Nodup := hletters.nodup q.distinct
  have hchosen := hperm.symm.flatMap_right first
  rw [strictlyFrom_sortedText]
  · exact hchosen.nodup_iff.mpr hnodup
  · intro c hc
    exact hletters.subset (hchosen.mem_iff.mp hc)

/-- The letters that the parts of an answer are matched with. -/
def matched (q : Options) (parts : List String) : List Char :=
  parts.flatMap fun part => (q.lines.filter (OptionLine.holds part)).map OptionLine.letter

theorem answerMultiple_options (u : Unicode) (q : Options) (res : String) :
    answerMultiple u (q.lines.map fun o => strip o.text) res =
      if lettersFiltered u res q.letters ≠ [] then
        sortedText (uniqueLetters (lettersFiltered u res q.letters))
      else match multiCut res with
        | none => ""
        | some parts => sortedText (matched q parts) := by
  have hletters := q.flatMap_lines
  have hpart : ∀ part, ((q.lines.map fun o => strip o.text).filter fun o =>
      isSubsequence (cleanRes part).toList o.toList).flatMap first =
        (q.lines.filter (OptionLine.holds part)).map OptionLine.letter := by
    intro part
    have hcomp : ((fun o : String => isSubsequence (cleanRes part).toList o.toList) ∘
        fun o : OptionLine => strip o.text) = OptionLine.holds part := by
      funext o
      rw [OptionLine.holds, Function.comp_apply]
    rw [List.filter_map, hcomp]
    exact Options.flatMap_first fun o ho => (List.mem_filter.mp ho).1
  rw [answerMultiple, hletters]
  split_ifs
  · rfl
  · cases multiCut res with
    | none => rfl
    | some parts =>
      simp only [matched, List.flatMap_map, hpart]

/-- How often a letter is matched. -/
theorem count_matched (q : Options) {o : OptionLine} (ho : o ∈ q.lines) (parts : List String) :
    (matched q parts).count o.letter = parts.countP fun part => o.holds part := by
  induction parts with
  | nil => rfl
  | cons part parts ih =>
    have hone : ((q.lines.filter (OptionLine.holds part)).map OptionLine.letter).count o.letter =
        if o.holds part = true then 1 else 0 := by
      have hnodup : ((q.lines.filter (OptionLine.holds part)).map OptionLine.letter).Nodup :=
        q.distinct.sublist (List.filter_sublist.map _)
      rw [hnodup.count]
      have hiff : o.letter ∈ (q.lines.filter (OptionLine.holds part)).map OptionLine.letter ↔
          o.holds part = true := by
        rw [List.mem_map]
        constructor
        · rintro ⟨x, hx, hletter⟩
          obtain ⟨hmem, hholds⟩ := List.mem_filter.mp hx
          have hsame : x = o := List.inj_on_of_nodup_map q.distinct hmem ho hletter
          exact hsame ▸ hholds
        · intro hholds
          exact ⟨o, List.mem_filter.mpr ⟨ho, hholds⟩, rfl⟩
      simp only [hiff]
    rw [matched, List.flatMap_cons, List.count_append, hone, List.countP_cons, ← ih, matched]
    omega

/-- No option is matched by two parts of an answer. -/
def MatchedOnce (q : Options) (parts : List String) : Prop :=
  ∀ o ∈ q.lines, (parts.countP fun part => o.holds part) ≤ 1

theorem matched_subset {q : Options} {parts : List String} {c : Char} (h : c ∈ matched q parts) :
    c ∈ q.letters := by
  obtain ⟨part, -, hc⟩ := List.mem_flatMap.mp h
  exact (List.filter_sublist.map OptionLine.letter).subset hc

theorem nodup_matched_iff (q : Options) (parts : List String) :
    (matched q parts).Nodup ↔ MatchedOnce q parts := by
  rw [List.nodup_iff_count_le_one]
  constructor
  · intro h o ho
    rw [← count_matched q ho]
    exact h o.letter
  · intro h c
    by_cases hc : c ∈ matched q parts
    · obtain ⟨o, ho, rfl⟩ := List.mem_map.mp (matched_subset hc)
      rw [count_matched q ho]
      exact h o ho
    · rw [List.count_eq_zero_of_not_mem hc]
      exact Nat.zero_le 1

/-- The answer of the bank is absent, names letters of options, has no parts, or has parts that
match no option twice. -/
def Unambiguous (u : Unicode) (q : Options) (res : Option String) : Prop :=
  ∀ text, res = some text → text ≠ "" → lettersFiltered u text q.letters = [] →
    ∀ parts, multiCut text = some parts → MatchedOnce q parts

theorem multiple_answer_strict (u : Unicode) (tiku : Tiku) (ch : Chance) (q : Options)
    (res : Option String) :
    StrictlyFrom q.letters (handleQuestion u tiku ch .multiple q.text res).2 ↔
      Unambiguous u q res := by
  have hrandom := random_strict ch q
  by_cases hgiven : ∃ text, res = some text ∧ text ≠ ""
  · obtain ⟨text, rfl, hne⟩ := hgiven
    have hsome : (some text).filter (fun answer => answer ≠ "") = some text := by simp [hne]
    rw [handleQuestion, hsome]
    simp only [answerFrom, q.cut_text]
    have hanswer := answerMultiple_options u q text
    have hunambiguous : Unambiguous u q (some text) ↔ (lettersFiltered u text q.letters = [] →
        ∀ parts, multiCut text = some parts → MatchedOnce q parts) := by
      constructor
      · exact fun h => h text rfl hne
      · rintro h x hx -
        obtain rfl := Option.some_inj.mp hx
        exact h
    rw [hunambiguous]
    by_cases hletters : lettersFiltered u text q.letters = []
    · rw [if_neg (not_not.mpr hletters)] at hanswer
      rw [hanswer, imp_iff_right hletters]
      cases hparts : multiCut text with
      | none => simpa using hrandom
      | some parts =>
        have hstrict := strictlyFrom_sortedText fun c (hc : c ∈ matched q parts) => matched_subset hc
        rw [nodup_matched_iff] at hstrict
        have hone : (∀ p, some parts = some p → MatchedOnce q p) ↔ MatchedOnce q parts := by simp
        rw [hone, ← hstrict]
        dsimp only
        split_ifs with hempty
        · have htrivial : StrictlyFrom q.letters "" := ⟨List.Pairwise.nil, by simp⟩
          rw [hempty]
          exact iff_of_true hrandom htrivial
        · exact Iff.rfl
    · rw [if_pos hletters] at hanswer
      rw [hanswer]
      have hunique : StrictlyFrom q.letters
          (sortedText (uniqueLetters (lettersFiltered u text q.letters))) := by
        rw [strictlyFrom_sortedText]
        · exact nodup_uniqueLetters _
        · intro c hc
          have hc' := mem_uniqueLetters.mp hc
          rw [lettersFiltered, List.mem_filter] at hc'
          simpa using hc'.2
      refine iff_of_true ?_ fun h => absurd h hletters
      split_ifs
      · exact hrandom
      · exact hunique
  · have hnone : res.filter (fun answer => answer ≠ "") = none := by
      rw [Option.filter_eq_none_iff]
      intro text htext
      simpa using fun hne => hgiven ⟨text, htext, hne⟩
    rw [handleQuestion, hnone]
    exact iff_of_true hrandom fun text htext hne => absurd ⟨text, htext, hne⟩ hgiven

/-- Two options, one of which holds both parts of an answer. -/
def cities : Options where
  lines := [⟨'A', ". 北京和上海"⟩, ⟨'B', ". 广州"⟩]
  two := by decide
  visible := by decide
  oneLine := by decide
  distinct := by decide

theorem option_matched_twice :
    (handleQuestion chineseAndLatin (initTiku .tikuYanxi none false) (Chance.pick 0) .multiple
      cities.text (some "北京#上海")).2 = "AA" ∧ ¬ StrictlyFrom cities.letters "AA" := by
  refine ⟨rfl, fun h => ?_⟩
  have hsorted := h.1
  revert hsorted
  decide

end Multiple
end UniversityHelper.Quiz
