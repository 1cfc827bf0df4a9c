import UniversityHelper.AnswerBank

/-! How a quiz question is answered: with the answer of the question bank where that can be
matched with the options, and at random otherwise. -/
namespace UniversityHelper.Quiz
open AnswerBank

/-- `str.isalpha` and `str.upper` of one character. -/
structure Unicode where
  isAlpha : Char → Bool
  upper : Char → List Char

/-- What is drawn at random: `random.choice`, one of `possible_counts` (each has a positive
weight), `random.sample` and a choice between `True` and `False`. -/
structure Chance where
  choice : List String → String
  choice_mem : ∀ options, options ≠ [] → choice options ∈ options
  count : ℕ → ℕ → ℕ
  count_mem : ∀ low high, low ≤ high → low ≤ count low high ∧ count low high ≤ high
  sample : List String → ℕ → List String
  sample_subperm : ∀ options n, n ≤ options.length → (sample options n).Subperm options
  length_sample : ∀ options n, n ≤ options.length → (sample options n).length = n
  coin : Bool

/-- `option[:1]`. -/
def first (option : String) : List Char := option.toList.take 1

/-- `"".join(sorted(answer))`. -/
def sortedText (letters : List Char) : String := String.ofList (letters.insertionSort (· ≤ ·))

def multiCut (answer : String) : Option (List String) := cut answer

def selectCount (ch : Chance) (available : ℕ) : ℕ :=
  if available ≤ 1 then available else ch.count (min 2 available) (min 4 available)

def randomAnswer (ch : Chance) (type : QuestionType) (options : String) : String :=
  if options = "" then ""
  else match type with
    | .multiple =>
      match multiCut options with
      | none => ""
      | some opList => sortedText ((ch.sample opList (selectCount ch opList.length)).flatMap first)
    | .single => String.ofList (first (ch.choice (splitText options '\n')))
    | .judgement => if ch.coin = true then "true" else "false"
    | .completion | .other _ => ""

def punctuation : List Char := ['.', ',', '!', '?', ';', ':', '，', '。', '！', '？', '；', '：']

def isAsciiLetter (c : Char) : Bool :=
  ('A' ≤ c ∧ c ≤ 'Z') ∨ ('a' ≤ c ∧ c ≤ 'z')

/-- `clean_res` of one text. -/
def cleanRes (text : String) : String :=
  let cleaned := match text.toList with
    | [] => []
    | c :: cs => if isAsciiLetter c = true then cs else c :: cs
  strip (String.ofList (cleaned.filter fun c => c ∉ punctuation))

/-- `is_subsequence`; the iterator over `o` never goes back. -/
def isSubsequence : List Char → List Char → Bool
  | [], _ => true
  | _ :: _, [] => false
  | a :: as, o :: os => if a = o then isSubsequence as os else isSubsequence (a :: as) os

/-- `letters_filtered`. -/
def lettersFiltered (u : Unicode) (res : String) (optLetters : List Char) : List Char :=
  ((res.toList.filter u.isAlpha).flatMap u.upper).filter fun c => c ∈ optLetters

def uniqueLetters (letters : List Char) : List Char :=
  letters.foldl (fun unique c => if c ∈ unique then unique else unique ++ [c]) []

def answerMultiple (u : Unicode) (optionsList : List String) (res : String) : String :=
  let letters := lettersFiltered u res (optionsList.flatMap first)
  if letters ≠ [] then sortedText (uniqueLetters letters)
  else match multiCut res with
    | none => ""
    | some resList =>
      sortedText ((resList.map cleanRes).flatMap fun a =>
        (optionsList.filter fun o => isSubsequence a.toList o.toList).flatMap first)

def answerSingle (u : Unicode) (optionsList : List String) (res : String) : String :=
  let letters := lettersFiltered u res (optionsList.flatMap first)
  if letters.length = 1 then String.ofList letters
  else match optionsList.find? fun o => isSubsequence (cleanRes res).toList o.toList with
    | none => ""
    | some o => String.ofList (first o)

/-- The answer to a question from what the bank says, `""` where they do not match. -/
def answerFrom (u : Unicode) (tiku : Tiku) (ch : Chance) (type : QuestionType)
    (options res : String) : String :=
  match type with
  | .multiple =>
    match multiCut options with
    | none => ""
    | some optionsList => answerMultiple u optionsList res
  | .single =>
    match multiCut options with
    | none => ""
    | some optionsList => answerSingle u optionsList res
  | .judgement =>
    if (judgementSelect tiku res).getD ch.coin = true then "true" else "false"
  | .completion => strip res
  | .other _ => res

/-- The values of `answerSource`. -/
inductive Source
  | cover | random
  deriving DecidableEq, Repr

/-- `handle_question`, where the bank has not raised: the source and the answer. -/
def handleQuestion (u : Unicode) (tiku : Tiku) (ch : Chance) (type : QuestionType)
    (options : String) (res : Option String) : Source × String :=
  match res.filter fun answer => answer ≠ "" with
  | none => (.random, randomAnswer ch type options)
  | some res =>
    let answer := answerFrom u tiku ch type options res
    if answer = "" then (.random, randomAnswer ch type options) else (.cover, answer)

/-- The draw that takes the option at `i`. -/
def Chance.pick (i : ℕ) : Chance where
  choice options := options.getD (if i < options.length then i else 0) ""
  choice_mem options h := by
    have hpos : 0 < options.length := List.length_pos_iff.mpr h
    have hlt : (if i < options.length then i else 0) < options.length := by split_ifs <;> assumption
    rw [List.getD_eq_getElem _ _ hlt]
    exact List.getElem_mem hlt
  count low _ := low
  count_mem low high h := ⟨le_rfl, h⟩
  sample options n := options.take n
  sample_subperm options n _ := (List.take_sublist n options).subperm
  length_sample options n h := List.length_take_of_le h
  coin := true

/-- The ASCII letters and the Chinese characters. -/
def chineseAndLatin : Unicode where
  isAlpha c := isAsciiLetter c || (0x4E00 ≤ c.toNat ∧ c.toNat ≤ 0x9FFF)
  upper c := [c.toUpper]

/-- `"\n".join(lines)`. -/
def joinLines (lines : List String) : String :=
  String.ofList (['\n'].intercalate (lines.map String.toList))

section Text

theorem isSubsequence_iff (a o : List Char) : isSubsequence a o = true ↔ a.Sublist o := by
  induction o generalizing a with
  | nil =>
    cases a with
    | nil => simp [isSubsequence]
    | cons c cs => simp [isSubsequence]
  | cons d ds ih =>
    cases a with
    | nil => simp [isSubsequence]
    | cons c cs =>
      rw [isSubsequence]
      by_cases h : c = d
      · rw [if_pos h, ih, h, List.cons_sublist_cons]
      · rw [if_neg h, ih]
        constructor
        · exact fun hsub => hsub.cons d
        · intro hsub
          cases hsub with
          | cons _ hsub => exact hsub
          | cons_cons _ hsub => exact absurd rfl h

/-- A text that begins with no space is a subsequence of what follows the spaces. -/
theorem sublist_dropWhile {a l : List Char} (ha : a.dropWhile isSpace = a) (h : a.Sublist l) :
    a.Sublist (l.dropWhile isSpace) := by
  induction l with
  | nil => exact h
  | cons d ds ih =>
    rw [List.dropWhile_cons]
    split_ifs with hspace
    · cases h with
      | cons _ hsub => exact ih hsub
      | @cons_cons as _ _ hsub =>
        rw [List.dropWhile_cons_of_pos hspace] at ha
        have hlen : (as.dropWhile isSpace).length = as.length + 1 := congrArg List.length ha
        have hle : (as.dropWhile isSpace).length ≤ as.length :=
          (List.dropWhile_suffix isSpace).length_le
        omega
    · exact h

theorem stripChars_sublist (l : List Char) : (stripChars l).Sublist l :=
  (List.rdropWhile_prefix isSpace _).sublist.trans (List.dropWhile_suffix isSpace).sublist

theorem stripChars_reverse (l : List Char) :
    (stripChars l).reverse.dropWhile isSpace = (stripChars l).reverse := by
  have h : (stripChars l).rdropWhile isSpace = stripChars l := List.rdropWhile_idempotent _ _
  rw [List.rdropWhile] at h
  rw [← List.reverse_reverse (List.dropWhile isSpace _), h]

/-- A stripped text is a subsequence of a text if it is one of the stripped text. -/
theorem stripChars_sublist_iff (a l : List Char) :
    (stripChars a).Sublist (stripChars l) ↔ (stripChars a).Sublist l := by
  constructor
  · exact fun h => h.trans (stripChars_sublist l)
  · intro h
    have hhead := sublist_dropWhile (dropWhile_stripChars a) h
    have hlast := sublist_dropWhile (stripChars_reverse a) (List.reverse_sublist.mpr hhead)
    have hback := List.reverse_sublist.mpr hlast
    rw [List.reverse_reverse] at hback
    exact hback

theorem cleanRes_sublist (text : String) : (cleanRes text).toList.Sublist text.toList := by
  rw [cleanRes, strip, String.toList_ofList, String.toList_ofList]
  apply (stripChars_sublist _).trans
  apply List.filter_sublist.trans
  cases text.toList with
  | nil => exact List.Sublist.refl _
  | cons c cs =>
    dsimp only
    split_ifs
    · exact List.sublist_cons_self c cs
    · exact List.Sublist.refl _

/-- The cleaned text of an answer and a line of the options. -/
theorem cleanRes_strip_iff (res line : String) :
    isSubsequence (cleanRes res).toList (strip line).toList = true ↔
      (cleanRes res).toList.Sublist line.toList := by
  simp only [isSubsequence_iff, cleanRes, strip, String.toList_ofList]
  exact stripChars_sublist_iff _ _

theorem first_strip {c : Char} (hc : isSpace c = false) (rest : List Char) :
    first (strip (String.ofList (c :: rest))) = [c] := by
  have hdrop : (c :: rest).dropWhile isSpace = c :: rest := by simp [hc]
  rw [first, strip, String.toList_ofList, String.toList_ofList, stripChars, hdrop]
  obtain ⟨tail, htail⟩ := List.rdropWhile_prefix isSpace (c :: rest)
  cases hkept : (c :: rest).rdropWhile isSpace with
  | nil =>
    rw [List.rdropWhile_eq_nil_iff] at hkept
    have hspace := hkept c List.mem_cons_self
    rw [hc] at hspace
    cases hspace
  | cons d ds =>
    rw [hkept, List.cons_append, List.cons.injEq] at htail
    rw [htail.1]
    rfl

theorem splitOn_joinLines {lines : List String} (given : lines ≠ [])
    (plain : ∀ line ∈ lines, '\n' ∉ line.toList) :
    (joinLines lines).toList.splitOn '\n' = lines.map String.toList := by
  rw [joinLines, String.toList_ofList]
  apply List.splitOn_intercalate
  · intro l hl
    obtain ⟨line, hline, rfl⟩ := List.mem_map.mp hl
    exact plain line hline
  · intro hnil
    exact given (List.map_eq_nil_iff.mp hnil)

theorem splitText_joinLines {lines : List String} (given : lines ≠ [])
    (plain : ∀ line ∈ lines, '\n' ∉ line.toList) : splitText (joinLines lines) '\n' = lines := by
  rw [splitText, splitOn_joinLines given plain, List.map_map]
  simp [Function.comp_def]

/-- Two and more lines, none of which is blank, are cut at their ends. -/
theorem cut_joinLines {lines : List String} (two : 2 ≤ lines.length)
    (plain : ∀ line ∈ lines, '\n' ∉ line.toList) (blank : ∀ line ∈ lines, strip line ≠ "") :
    cut (joinLines lines) = some (lines.map strip) := by
  have hne : lines ≠ [] := List.ne_nil_of_length_pos (by omega)
  have hsplit := splitOn_joinLines hne plain
  have hoptions : splitOptions (joinLines lines) '\n' = lines.map strip := by
    rw [splitOptions, hsplit, List.map_map, List.filter_eq_self.mpr]
    · simp [Function.comp_def]
    · intro part hpart
      obtain ⟨line, hline, rfl⟩ := List.mem_map.mp hpart
      simpa using blank line hline
  have hnewline : '\n' ∈ (joinLines lines).toList := by
    by_contra habsent
    have hone := congrArg List.length hsplit
    rw [List.splitOn_eq_singleton habsent, List.length_map, List.length_singleton] at hone
    omega
  rw [cut, cutChars, List.filter_cons_of_pos (by simpa using hnewline),
    List.find?_cons_of_pos (by simpa [hoptions] using hne)]
  exact congrArg some hoptions

end Text
end UniversityHelper.Quiz
