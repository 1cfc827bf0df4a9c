import UniversityHelper.ChapterLog

/-! When the page reads a line about a failed chapter as the worker meant it. -/
namespace UniversityHelper.ChapterLog
open JobProcessor (ChapterTask)
open JavaScript (Delimiter OneLine trimChars)

def withoutPeriods (text : String) : String := String.ofList (text.toList.rdropWhile isPeriod)

/-- What the worker meant by a line. -/
def meant (title : String) (task : ChapterTask) (final : Bool) (maxTries : ℕ) : Entry where
  kind := if final = true then .skipped else .retrying
  chapter := title
  tries := some maxTries
  reason := withoutPeriods (describeChapterFailure task).1
  hint := if final = true then some (withoutPeriods (describeChapterFailure task).2) else none

/-- The error that a reason shows. -/
def shownError (task : ChapterTask) : List Char := if task.result = .notOpen then [] else task.error.toList

/-- Title, error and number of tries leave the delimiters of the line where they are. -/
structure Readable (title : String) (task : ChapterTask) (final : Bool) (maxTries : ℕ) : Prop where
  named : title ≠ ""
  titleLine : OneLine title.toList
  errorLine : OneLine (shownError task)
  untrimmed : (shownError task).rdropWhile JavaScript.isSpace = shownError task
  counted : JavaScript.number (Nat.toDigits 10 maxTries) = some maxTries
  retrying : final = false → ¬ retryDelimiter.OccursIn title.toList.tail ∧
    ¬ skippedDelimiter.OccursIn title.toList.tail ∧ ¬ skippedDelimiter.OccursIn (shownError task)
  skipped : final = true → ¬ skippedDelimiter.OccursIn title.toList.tail ∧ ¬ advice <:+: shownError task

variable {title : String} {task : ChapterTask} {final : Bool} {maxTries : ℕ}
  {cs lead error reason hint taken more : List Char}

/-! ### Trimming -/

theorem rdropWhile_append_of_ne {p : Char → Bool} {xs ys : List Char} (h : ys.rdropWhile p ≠ []) :
    (xs ++ ys).rdropWhile p = xs ++ ys.rdropWhile p := by
  simp only [List.rdropWhile, List.reverse_append, List.dropWhile_append] at h ⊢
  have hne : ¬ (List.dropWhile p ys.reverse).isEmpty = true := by
    simpa [List.isEmpty_iff] using h
  rw [if_neg hne, List.reverse_append, List.reverse_reverse]

theorem rdropWhile_append_of_self {p : Char → Bool} {xs ys : List Char} (hself : xs.rdropWhile p = xs) :
    (xs ++ ys).rdropWhile p = xs ++ ys.rdropWhile p := by
  by_cases h : ys.rdropWhile p = []
  · have hall : ∀ c ∈ ys.reverse, p c = true := by simpa using List.rdropWhile_eq_nil_iff.mp h
    rw [h, List.append_nil]
    rw [List.rdropWhile] at hself
    rw [List.rdropWhile, List.reverse_append, List.dropWhile_append_of_pos hall, hself]
  · exact rdropWhile_append_of_ne h

theorem rdropWhile_append_of_all {p : Char → Bool} {xs ys : List Char} (hxs : ∀ c ∈ xs, p c = false) :
    (xs ++ ys).rdropWhile p = xs ++ ys.rdropWhile p := by
  refine rdropWhile_append_of_self (List.rdropWhile_eq_self_iff.mpr ?_)
  intro hnil
  simp [hxs _ (List.getLast_mem hnil)]

theorem rdropWhile_length_lt {p : Char → Bool} (h : cs.rdropWhile p ≠ cs) :
    (cs.rdropWhile p).length < cs.length := by
  have hstarts := List.rdropWhile_prefix p cs
  exact lt_of_le_of_ne hstarts.length_le fun hlength => h (hstarts.eq_of_length hlength)

theorem trimChars_of_head {c : Char} (hc : JavaScript.isSpace c = false) :
    trimChars (c :: cs) = (c :: cs).rdropWhile JavaScript.isSpace := by
  rw [trimChars, List.dropWhile_cons_of_neg (by simp [hc])]

theorem stripPeriod_length : (stripPeriod cs).toList.length ≤ cs.length := by
  rw [stripPeriod, String.toList_ofList]
  have htrim : (trimChars cs).length ≤ cs.length :=
    (List.rdropWhile_prefix _ _).length_le.trans (List.dropWhile_suffix _).length_le
  exact (List.rdropWhile_prefix _ _).length_le.trans htrim

/-- A text that does not begin with a space loses only periods, unless it ends with a space. -/
theorem stripPeriod_iff {c : Char} (hc : JavaScript.isSpace c = false) :
    stripPeriod ((c :: cs).rdropWhile JavaScript.isSpace) = withoutPeriods (String.ofList (c :: cs)) ↔
      (c :: cs).rdropWhile JavaScript.isSpace = c :: cs := by
  have hdisjoint : ∀ d, isPeriod d = true → JavaScript.isSpace d = false := by
    intro d hd
    rw [isPeriod, decide_eq_true_eq] at hd
    rcases hd with rfl | rfl <;> rfl
  constructor
  · intro hsame
    by_contra hspace
    have hshort := rdropWhile_length_lt hspace
    -- the last character is a space, so that no period is dropped
    have hlast : (c :: cs).rdropWhile isPeriod = c :: cs := by
      rw [List.rdropWhile_eq_self_iff]
      intro hne hperiod
      refine hspace (List.rdropWhile_eq_self_iff.mpr fun hne' => ?_)
      simp [hdisjoint _ hperiod]
    have hlength : (stripPeriod ((c :: cs).rdropWhile JavaScript.isSpace)).toList.length ≤
        ((c :: cs).rdropWhile JavaScript.isSpace).length := stripPeriod_length
    rw [hsame, withoutPeriods, String.toList_ofList, String.toList_ofList, hlast] at hlength
    omega
  · intro hself
    rw [hself, stripPeriod, trimChars_of_head hc, hself, withoutPeriods, String.toList_ofList]

/-! ### Reasons -/

/-- What stands before the error in a reason: neither spaces nor characters of the delimiters. -/
structure Lead (lead : List Char) : Prop where
  nonempty : lead ≠ []
  plain : ∀ c ∈ lead, JavaScript.isSpace c = false ∧ JavaScript.isLineEnd c = false ∧ c ≠ '」' ∧ c ≠ '。'

theorem lead_of_all {text : String} (hne : text.toList ≠ []) (hall : text.toList.all (fun c =>
    !JavaScript.isSpace c && !JavaScript.isLineEnd c && c ≠ '」' && c ≠ '。') = true) : Lead text.toList where
  nonempty := hne
  plain := by
    intro c hc
    have hplain := List.all_eq_true.mp hall c hc
    simp only [Bool.and_eq_true, Bool.not_eq_true', decide_eq_true_eq] at hplain
    exact ⟨hplain.1.1.1, hplain.1.1.2, hplain.1.2, hplain.2⟩

theorem reason_eq (task : ChapterTask) :
    ∃ lead, Lead lead ∧ (describeChapterFailure task).1.toList = lead ++ shownError task := by
  unfold describeChapterFailure shownError
  split_ifs with hopen herror
  · exact ⟨notOpenReason.toList, lead_of_all (by decide) (by decide), by simp⟩
  · exact ⟨"处理时出错：".toList, lead_of_all (by decide) (by decide), by simp⟩
  · have hempty : task.error = "" := not_not.mp herror
    exact ⟨jobFailedReason.toList, lead_of_all (by decide) (by decide), by simp [hempty]⟩

namespace Lead

theorem line_iff (h : Lead lead) : OneLine (lead ++ error) ↔ OneLine error :=
  ⟨OneLine.right, fun herror => OneLine.append (fun c hc => (h.plain c hc).2.1) herror⟩

theorem infix_iff (h : Lead lead) {c : Char} (hc : c = '」' ∨ c = '。') :
    c :: cs <:+: lead ++ error ↔ c :: cs <:+: error := by
  have habsent : c ∉ lead := by
    intro hmem
    have hplain := h.plain c hmem
    rcases hc with rfl | rfl
    · exact hplain.2.2.1 rfl
    · exact hplain.2.2.2 rfl
  exact ⟨JavaScript.infix_of_absent habsent, fun herror => herror.trans (List.suffix_append _ _).isInfix⟩

theorem occurs_iff (h : Lead lead) : skippedDelimiter.OccursIn (lead ++ error) ↔ skippedDelimiter.OccursIn error := by
  unfold Delimiter.OccursIn Delimiter.text
  exact exists_congr fun run => and_congr_right fun _ => h.infix_iff (.inl rfl)

theorem advice_iff (h : Lead lead) : advice <:+: lead ++ error ↔ advice <:+: error :=
  h.infix_iff (.inr rfl)

theorem trim_append (h : Lead lead) :
    (lead ++ error).rdropWhile JavaScript.isSpace = lead ++ error.rdropWhile JavaScript.isSpace :=
  rdropWhile_append_of_all fun c hc => (h.plain c hc).1

theorem head (h : Lead lead) : ∃ c more, lead = c :: more ∧ JavaScript.isSpace c = false := by
  obtain ⟨c, more, rfl⟩ := List.exists_cons_of_ne_nil h.nonempty
  exact ⟨c, more, rfl, (h.plain c List.mem_cons_self).1⟩

end Lead

/-! ### Hints -/

/-- A hint has one line, without spaces at its ends. -/
structure Hint (hint : List Char) : Prop where
  line : OneLine hint
  trimmed : trimChars hint = hint

theorem hint_of_plain {text : String} (hline : text.toList.all (fun c => !JavaScript.isLineEnd c) = true)
    (htrim : trimChars text.toList = text.toList) : Hint text.toList where
  line := by
    intro c hc
    simpa using List.all_eq_true.mp hline c hc
  trimmed := htrim

set_option maxRecDepth 2000 in
theorem hint_described (task : ChapterTask) : Hint (describeChapterFailure task).2.toList := by
  unfold describeChapterFailure
  split_ifs
  · have hspaces : notOpenHint.toList.all (fun c => !JavaScript.isSpace c) = true := rfl
    show Hint notOpenHint.toList
    refine hint_of_plain rfl (JavaScript.trimChars_eq_self fun c hc => ?_)
    simpa using List.all_eq_true.mp hspaces c hc
  · show Hint retryHint.toList
    exact hint_of_plain rfl rfl
  · show Hint jobFailedHint.toList
    exact hint_of_plain rfl rfl

theorem Hint.stripped {text : String} (h : Hint text.toList) : stripPeriod text.toList = withoutPeriods text := by
  rw [stripPeriod, h.trimmed, withoutPeriods]

theorem Hint.untrimmed (h : Hint hint) : hint.rdropWhile JavaScript.isSpace = hint := by
  have hdrop := List.dropWhile_suffix (p := JavaScript.isSpace) (l := hint)
  have hlength : hint.length ≤ (hint.dropWhile JavaScript.isSpace).length := by
    have hstarts := List.rdropWhile_prefix JavaScript.isSpace (hint.dropWhile JavaScript.isSpace)
    have htrimmed : (hint.dropWhile JavaScript.isSpace).rdropWhile JavaScript.isSpace = hint := h.trimmed
    rw [htrimmed] at hstarts
    exact hstarts.length_le
  have hself : hint.dropWhile JavaScript.isSpace = hint :=
    hdrop.eq_of_length (le_antisymm hdrop.length_le hlength)
  have htrimmed := h.trimmed
  rwa [trimChars, hself] at htrimmed

/-! ### The patterns -/

theorem restOfLine_lines : Delimiter.MatchesLines JavaScript.restOfLine := by
  intro cs
  simp [JavaScript.restOfLine]

theorem adviceEnd_advice (hline : OneLine hint) : adviceEnd (advice ++ hint) = some (some hint) := by
  rw [adviceEnd, JavaScript.literal_append, JavaScript.restOfLine_eq_some.mpr ⟨hline, rfl⟩]

theorem adviceEnd_eq_some {found : Option (List Char)} (h : adviceEnd cs = some found) :
    (∃ hint, cs = advice ++ hint ∧ OneLine hint ∧ found = some hint) ∨ cs = [] ∧ found = none := by
  unfold adviceEnd at h
  split at h
  · rename_i hint hliteral
    obtain ⟨rest, rfl, hrest⟩ := JavaScript.literal_eq_some.mp hliteral
    obtain ⟨hline, rfl⟩ := JavaScript.restOfLine_eq_some.mp hrest
    exact .inl ⟨hint, rfl, hline, (Option.some_inj.mp h).symm⟩
  · split_ifs at h with hnil
    exact .inr ⟨hnil, (Option.some_inj.mp h).symm⟩

theorem advice_line : OneLine advice := by decide

theorem adviceEnd_lines : Delimiter.MatchesLines (JavaScript.dots adviceEnd) := by
  intro cs
  constructor
  · intro hsome
    obtain ⟨⟨taken, found⟩, hmatch⟩ := Option.ne_none_iff_exists'.mp hsome
    obtain ⟨rest, rfl, htaken, hrest, -⟩ := JavaScript.dots_eq_some.mp hmatch
    rcases adviceEnd_eq_some hrest with ⟨hint, rfl, hhint, -⟩ | ⟨rfl, -⟩
    · exact htaken.append (advice_line.append hhint)
    · simpa using htaken
  · intro hline
    have hnil : adviceEnd [] ≠ none := by decide
    have hdots := JavaScript.dots_ne_none hline hnil
    rwa [List.append_nil] at hdots

/-- Without advice of its own a reason is captured whole. -/
theorem dots_advised (hreason : OneLine reason) (hhint : OneLine hint) (hfree : ¬ advice <:+: reason) :
    JavaScript.dots adviceEnd (reason ++ (advice ++ hint)) = some (reason, some hint) := by
  refine JavaScript.dots_eq_some.mpr ⟨advice ++ hint, rfl, hreason, adviceEnd_advice hhint, ?_⟩
  rintro p s rfl hs
  by_contra hsome
  obtain ⟨found, hfound⟩ := Option.ne_none_iff_exists'.mp hsome
  rcases adviceEnd_eq_some hfound with ⟨rest, hsplit, -, -⟩ | ⟨hnil, -⟩
  · have hmark : '。' ∉ advice.tail := by decide
    have hstarts : advice <+: s := JavaScript.prefix_of_mark hmark hs hsplit.symm
    exact hfree (hstarts.isInfix.trans (List.suffix_append p s).isInfix)
  · exact hs (List.append_eq_nil_iff.mp hnil).1

/-- With advice of its own it is cut off there. -/
theorem dots_unadvised {found : Option (List Char)} (hinside : advice <:+: reason)
    (h : JavaScript.dots adviceEnd (reason ++ (advice ++ hint)) = some (taken, found)) :
    taken ++ advice <+: reason := by
  obtain ⟨p, s, rfl⟩ := hinside
  obtain ⟨rest, hsplit, htaken, hrest, hfirst⟩ := JavaScript.dots_eq_some.mp h
  have hline : OneLine (p ++ advice ++ s ++ (advice ++ hint)) :=
    (adviceEnd_lines _).mp (by rw [h]; exact Option.some_ne_none _)
  have hwhole : taken ++ rest = p ++ (advice ++ (s ++ (advice ++ hint))) := by
    rw [← hsplit]
    simp
  have hshort : taken.length ≤ p.length := by
    by_contra hlong
    obtain ⟨more, rfl⟩ : p <+: taken :=
      List.prefix_of_prefix_length_le (hwhole ▸ List.prefix_append p _) (List.prefix_append taken rest) (by omega)
    have hmore : more ≠ [] := by
      rintro rfl
      simp at hlong
    have hnone := hfirst p more rfl hmore
    rw [List.append_assoc] at hwhole
    rw [List.append_cancel_left hwhole, adviceEnd_advice] at hnone
    · cases hnone
    · simp only [List.append_assoc] at hline
      exact hline.right.right
  rcases adviceEnd_eq_some hrest with ⟨rest, rfl, -, -⟩ | ⟨rfl, -⟩
  · have hstarts : taken ++ advice <+: p ++ advice ++ s ++ (advice ++ hint) := by
      rw [hsplit, ← List.append_assoc]
      exact List.prefix_append _ _
    refine List.prefix_of_prefix_length_le hstarts (List.prefix_append _ _) ?_
    simp only [List.length_append]
    omega
  · have hlength := congrArg List.length hwhole
    simp only [List.append_nil, List.length_append] at hlength
    have hadvice : 0 < advice.length := by decide
    omega

/-- The part before the advice is too short to be the reason. -/
theorem stripPeriod_ne (h : taken ++ advice <+: reason) :
    stripPeriod taken ≠ withoutPeriods (String.ofList reason) := by
  obtain ⟨more, rfl⟩ := h
  intro hsame
  have hlength : (stripPeriod taken).toList.length ≤ taken.length := stripPeriod_length
  have hkept : taken ++ advice <+: (taken ++ advice ++ more).rdropWhile isPeriod := by
    by_cases hmore : more.rdropWhile isPeriod = []
    · have hall : ∀ c ∈ more.reverse, isPeriod c = true := by simpa using List.rdropWhile_eq_nil_iff.mp hmore
      have hlast : (taken ++ advice).rdropWhile isPeriod = taken ++ advice := by
        rw [rdropWhile_append_of_ne (by decide)]
        rfl
      rw [List.rdropWhile] at hlast
      rw [List.rdropWhile, List.reverse_append, List.dropWhile_append_of_pos hall, hlast]
    · rw [rdropWhile_append_of_ne hmore]
      exact List.prefix_append _ _
  have hlong := hkept.length_le
  rw [hsame, withoutPeriods, String.toList_ofList, String.toList_ofList] at hlength
  have hadvice : advice.length = 4 := rfl
  rw [List.length_append] at hlong
  omega

/-! ### The lines -/

theorem isNumber_tries (maxTries : ℕ) : Delimiter.IsNumber (Nat.toDigits 10 maxTries) :=
  ⟨Nat.toDigits_ne_nil, fun _ hc => Nat.isDigit_of_mem_toDigits (by decide) (by decide) hc⟩

theorem toList_tries (maxTries : ℕ) : (toString maxTries).toList = Nat.toDigits 10 maxTries := by
  simp [toString, Nat.repr]

theorem retryLine_eq (title : String) (task : ChapterTask) (maxTries : ℕ) :
    (chapterFailureLine title task false maxTries).toList = opening ++ (title.toList ++
      (retryDelimiter.text (Nat.toDigits 10 maxTries) ++ (describeChapterFailure task).1.toList)) := by
  have hopen : "章节「".toList = opening := by decide
  have hbefore : "」处理失败，正在自动重试（最多 ".toList = '」' :: retryDelimiter.before := by decide
  have hafter : " 次）。原因：".toList = ' ' :: retryDelimiter.after := by decide
  have htext : retryDelimiter.text (Nat.toDigits 10 maxTries) = '」' :: (retryDelimiter.before ++
      Nat.toDigits 10 maxTries ++ ' ' :: retryDelimiter.after) := rfl
  simp only [chapterFailureLine, Bool.false_eq_true, if_false, String.toList_append, toList_tries, hopen,
    hbefore, hafter, htext, List.append_assoc, List.cons_append]

theorem skippedLine_eq (title : String) (task : ChapterTask) (maxTries : ℕ) :
    (chapterFailureLine title task true maxTries).toList = opening ++ (title.toList ++
      (skippedDelimiter.text (Nat.toDigits 10 maxTries) ++ ((describeChapterFailure task).1.toList ++
        (advice ++ (describeChapterFailure task).2.toList)))) := by
  have hopen : "章节「".toList = opening := by decide
  have hbefore : "」重试 ".toList = '」' :: skippedDelimiter.before := by decide
  have hafter : " 次仍失败，已跳过。原因：".toList = ' ' :: skippedDelimiter.after := by decide
  have hadvice : "。建议：".toList = advice := by decide
  have htext : skippedDelimiter.text (Nat.toDigits 10 maxTries) = '」' :: (skippedDelimiter.before ++
      Nat.toDigits 10 maxTries ++ ' ' :: skippedDelimiter.after) := rfl
  simp only [chapterFailureLine, if_true, String.toList_append, toList_tries, hopen, hbefore, hafter, hadvice,
    htext, List.append_assoc, List.cons_append]

/-- Only the end of a line is trimmed. -/
theorem trim_line (h : cs.rdropWhile JavaScript.isSpace ≠ []) (before : List Char) :
    trimChars (opening ++ (before ++ cs)) = opening ++ (before ++ cs.rdropWhile JavaScript.isSpace) := by
  have hopen : trimChars (opening ++ (before ++ cs)) = (opening ++ (before ++ cs)).rdropWhile JavaScript.isSpace :=
    trimChars_of_head rfl
  rw [hopen, ← List.append_assoc, rdropWhile_append_of_ne h, List.append_assoc]

/-- The line about a first failure, without the white space at its end. -/
theorem retryLine_trim (title : String) (task : ChapterTask) (maxTries : ℕ) :
    trimChars (chapterFailureLine title task false maxTries).toList = opening ++ (title.toList ++
      (retryDelimiter.text (Nat.toDigits 10 maxTries) ++
        (describeChapterFailure task).1.toList.rdropWhile JavaScript.isSpace)) := by
  obtain ⟨lead, hlead, hreason⟩ := reason_eq task
  have hkept : (describeChapterFailure task).1.toList.rdropWhile JavaScript.isSpace ≠ [] := by
    rw [hreason, hlead.trim_append]
    exact fun hnil => hlead.nonempty (List.append_eq_nil_iff.mp hnil).1
  rw [retryLine_eq, ← List.append_assoc title.toList, trim_line hkept, List.append_assoc]

/-- The line about a skipped chapter has no white space at its end. -/
theorem skippedLine_trim (title : String) (task : ChapterTask) (maxTries : ℕ) :
    trimChars (chapterFailureLine title task true maxTries).toList = opening ++ (title.toList ++
      (skippedDelimiter.text (Nat.toDigits 10 maxTries) ++ ((describeChapterFailure task).1.toList ++
        (advice ++ (describeChapterFailure task).2.toList)))) := by
  have hend : (advice ++ (describeChapterFailure task).2.toList).rdropWhile JavaScript.isSpace =
      advice ++ (describeChapterFailure task).2.toList := by
    have hadvice : advice.all (fun c => !JavaScript.isSpace c) = true := rfl
    rw [rdropWhile_append_of_all, (hint_described task).untrimmed]
    intro c hc
    simpa using List.all_eq_true.mp hadvice c hc
  have hkept : (advice ++ (describeChapterFailure task).2.toList).rdropWhile JavaScript.isSpace ≠ [] := by
    rw [hend]
    have hadvice : advice ≠ [] := by decide
    exact fun hnil => hadvice (List.append_eq_nil_iff.mp hnil).1
  have htrim := trim_line hkept (title.toList ++ (skippedDelimiter.text (Nat.toDigits 10 maxTries) ++
    (describeChapterFailure task).1.toList))
  simp only [hend, List.append_assoc] at htrim
  rw [skippedLine_eq, htrim]

theorem chapterSkipped_opening :
    chapterSkipped (opening ++ cs) = JavaScript.dotsPlus (skippedDelimiter.matcher (JavaScript.dots adviceEnd)) cs :=
  JavaScript.literal_append opening cs

theorem chapterRetrying_opening :
    chapterRetrying (opening ++ cs) = JavaScript.dotsPlus (retryDelimiter.matcher JavaScript.restOfLine) cs :=
  JavaScript.literal_append opening cs

/-- The delimiter of a skipped chapter can only be in the title or in the reason. -/
theorem skipped_occurs {run : List Char} (hrun : Delimiter.IsNumber run) :
    skippedDelimiter.OccursIn (taken ++ (retryDelimiter.text run ++ reason)) ↔
      skippedDelimiter.OccursIn taken ∨ skippedDelimiter.OccursIn reason := by
  constructor
  · rintro ⟨run', hrun', hinside⟩
    have hmark : '」' ∉ (skippedDelimiter.text run').tail := Delimiter.mark_tail hrun'
    rcases JavaScript.infix_of_mark hmark hinside with htaken | hafter
    · exact .inl ⟨run', hrun', htaken⟩
    · rcases List.infix_cons_iff.mp hafter with hstarts | hinside
      · -- the two delimiters differ in their second characters
        obtain ⟨more, hmore⟩ := hstarts
        have hsecond := congrArg (fun cs : List Char => cs[1]?) hmore
        simp [Delimiter.text, skippedDelimiter, retryDelimiter] at hsecond
      · have habsent : '」' ∉ retryDelimiter.before ++ run ++ retryDelimiter.next :: retryDelimiter.after :=
          Delimiter.mark_tail hrun
        exact .inr ⟨run', hrun', JavaScript.infix_of_absent habsent hinside⟩
  · rintro (⟨run', hrun', hinside⟩ | ⟨run', hrun', hinside⟩)
    · exact ⟨run', hrun', hinside.trans (List.prefix_append _ _).isInfix⟩
    · exact ⟨run', hrun', hinside.trans ((List.suffix_append _ _).trans (List.suffix_append _ _)).isInfix⟩

theorem dotsPlus_skipped_none {run : List Char} (hrun : Delimiter.IsNumber run) (hnamed : taken ≠ [])
    (htitle : OneLine taken) (hline : OneLine reason) :
    JavaScript.dotsPlus (skippedDelimiter.matcher (JavaScript.dots adviceEnd))
        (taken ++ (retryDelimiter.text run ++ reason)) = none ↔
      ¬ skippedDelimiter.OccursIn taken.tail ∧ ¬ skippedDelimiter.OccursIn reason := by
  have hdelimiter : OneLine (retryDelimiter.text run) := Delimiter.text_line hrun
  rw [Delimiter.dotsPlus_none adviceEnd_lines (htitle.append (hdelimiter.append hline))]
  obtain ⟨c, more, rfl⟩ := List.exists_cons_of_ne_nil hnamed
  rw [List.cons_append, List.tail_cons, List.tail_cons, skipped_occurs hrun, not_or]

/-- What the page makes of a line. -/
theorem parse_eq_meant (text : String) (h : trimChars text.toList = cs) :
    parseChapterLog text = some (meant title task final maxTries) ↔
      (final = true ∧ ∃ run taken found, chapterSkipped cs = some (title.toList, run, taken, found) ∧
        JavaScript.number run = some maxTries ∧
        stripPeriod taken = withoutPeriods (describeChapterFailure task).1 ∧
        stripPeriod (found.getD []) = withoutPeriods (describeChapterFailure task).2) ∨
      (final = false ∧ chapterSkipped cs = none ∧
        ∃ run taken, chapterRetrying cs = some (title.toList, run, taken) ∧
          JavaScript.number run = some maxTries ∧
          stripPeriod taken = withoutPeriods (describeChapterFailure task).1) := by
  have htitle : ∀ captured : List Char, String.ofList captured = title ↔ captured = title.toList := by
    intro captured
    rw [← String.toList_inj, String.toList_ofList]
  simp only [parseChapterLog, h]
  cases hskipped : chapterSkipped cs with
  | some captures =>
    obtain ⟨chapter, run, taken, found⟩ := captures
    cases final <;> simp [meant, htitle, and_assoc]
  | none =>
    cases hretrying : chapterRetrying cs with
    | some captures =>
      obtain ⟨chapter, run, taken⟩ := captures
      cases final <;> simp [meant, htitle, and_assoc]
    | none => simp

/-- A reason is read without its periods exactly if it does not end with a space. -/
theorem reason_read {text : String} (hlead : Lead lead) (hreason : text.toList = lead ++ error) :
    stripPeriod (text.toList.rdropWhile JavaScript.isSpace) = withoutPeriods text ↔
      error.rdropWhile JavaScript.isSpace = error := by
  obtain ⟨c, more, rfl, hc⟩ := hlead.head
  have hcons : text.toList = c :: (more ++ error) := hreason
  have hstrip : stripPeriod (text.toList.rdropWhile JavaScript.isSpace) = withoutPeriods text ↔
      text.toList.rdropWhile JavaScript.isSpace = text.toList := by
    rw [← String.ofList_toList (s := text), String.toList_ofList, hcons]
    exact stripPeriod_iff hc
  rw [hstrip, hreason, hlead.trim_append, List.append_cancel_left_eq]

/-- In the middle of a line a reason is trimmed too. -/
theorem reason_stripped {text : String} (hlead : Lead lead) (hreason : text.toList = lead ++ error) :
    stripPeriod text.toList = stripPeriod (text.toList.rdropWhile JavaScript.isSpace) := by
  obtain ⟨c, more, rfl, hc⟩ := hlead.head
  have hwhole : trimChars (c :: more ++ error) = c :: more ++ error.rdropWhile JavaScript.isSpace := by
    rw [← hlead.trim_append]
    exact trimChars_of_head hc
  have htrimmed : trimChars (c :: more ++ error.rdropWhile JavaScript.isSpace) =
      c :: more ++ error.rdropWhile JavaScript.isSpace := by
    conv_rhs => rw [← List.rdropWhile_idempotent, ← hlead.trim_append]
    exact trimChars_of_head hc
  rw [stripPeriod, stripPeriod, hreason, hlead.trim_append, hwhole, htrimmed]

theorem retrying_read_iff (title : String) (task : ChapterTask) (maxTries : ℕ) :
    parseChapterLog (chapterFailureLine title task false maxTries) = some (meant title task false maxTries) ↔
      Readable title task false maxTries := by
  obtain ⟨lead, hlead, hreason⟩ := reason_eq task
  have hrun := isNumber_tries maxTries
  have htext := retryLine_trim title task maxTries
  -- the reason is read as it is exactly if the end of the line was not trimmed
  have hself : (shownError task).rdropWhile JavaScript.isSpace = shownError task →
      (describeChapterFailure task).1.toList.rdropWhile JavaScript.isSpace =
        (describeChapterFailure task).1.toList := by
    intro huntrimmed
    rw [hreason, hlead.trim_append, huntrimmed]
  rw [parse_eq_meant _ htext, chapterSkipped_opening, chapterRetrying_opening]
  simp only [Bool.false_eq_true, false_and, true_and, false_or, Delimiter.dotsPlus_title restOfLine_lines hrun,
    JavaScript.restOfLine_eq_some]
  constructor
  · rintro ⟨hunskipped, run, taken, ⟨hnamed, htitle, hfree, rfl, hline, rfl⟩, hcount, hread⟩
    have huntrimmed := (reason_read hlead hreason).mp hread
    rw [hself huntrimmed] at hline hunskipped
    rw [dotsPlus_skipped_none hrun hnamed htitle hline, hreason, hlead.occurs_iff] at hunskipped
    rw [hreason, hlead.line_iff] at hline
    exact
      { named := fun hempty => hnamed (by simp [hempty])
        titleLine := htitle
        errorLine := hline
        untrimmed := huntrimmed
        counted := hcount
        retrying := fun _ => ⟨hfree, hunskipped⟩
        skipped := fun hfinal => by cases hfinal }
  · intro h
    obtain ⟨hfree, hunskipped⟩ := h.retrying rfl
    have hnamed : title.toList ≠ [] := fun hnil => h.named (String.toList_eq_nil_iff.mp hnil)
    have hline : OneLine (describeChapterFailure task).1.toList := by
      rw [hreason]
      exact hlead.line_iff.mpr h.errorLine
    have hread := (reason_read hlead hreason).mpr h.untrimmed
    rw [hself h.untrimmed] at hread ⊢
    refine ⟨?_, _, _, ⟨hnamed, h.titleLine, hfree, rfl, hline, rfl⟩, h.counted, hread⟩
    rw [dotsPlus_skipped_none hrun hnamed h.titleLine hline, hreason, hlead.occurs_iff]
    exact hunskipped

theorem skipped_read_iff (title : String) (task : ChapterTask) (maxTries : ℕ) :
    parseChapterLog (chapterFailureLine title task true maxTries) = some (meant title task true maxTries) ↔
      Readable title task true maxTries := by
  obtain ⟨lead, hlead, hreason⟩ := reason_eq task
  have hrun := isNumber_tries maxTries
  have hhint := hint_described task
  have htext := skippedLine_trim title task maxTries
  have hstrip := hhint.stripped
  rw [parse_eq_meant _ htext, chapterSkipped_opening]
  simp only [Bool.true_eq_false, false_and, true_and, or_false, Delimiter.dotsPlus_title adviceEnd_lines hrun]
  constructor
  · rintro ⟨run, taken, found, ⟨hnamed, htitle, hfree, rfl, hdots⟩, hcount, hread, -⟩
    have hline : OneLine ((describeChapterFailure task).1.toList ++ (advice ++ (describeChapterFailure task).2.toList)) :=
      (adviceEnd_lines _).mp (by rw [hdots]; exact Option.some_ne_none _)
    have hunadvised : ¬ advice <:+: (describeChapterFailure task).1.toList := by
      intro hinside
      have hne := stripPeriod_ne (dots_unadvised hinside hdots)
      rw [String.ofList_toList] at hne
      exact hne hread
    rw [dots_advised hline.left hhint.line hunadvised] at hdots
    cases hdots
    have hline := hline.left
    rw [hreason, hlead.line_iff] at hline
    rw [hreason, hlead.advice_iff] at hunadvised
    rw [reason_stripped hlead hreason] at hread
    exact
      { named := fun hempty => hnamed (by simp [hempty])
        titleLine := htitle
        errorLine := hline
        untrimmed := (reason_read hlead hreason).mp hread
        counted := hcount
        retrying := fun hfinal => by cases hfinal
        skipped := fun _ => ⟨hfree, hunadvised⟩ }
  · intro h
    obtain ⟨hfree, hunadvised⟩ := h.skipped rfl
    have hnamed : title.toList ≠ [] := fun hnil => h.named (String.toList_eq_nil_iff.mp hnil)
    have hline : OneLine (describeChapterFailure task).1.toList := by
      rw [hreason]
      exact hlead.line_iff.mpr h.errorLine
    have hread := (reason_read hlead hreason).mpr h.untrimmed
    rw [← reason_stripped hlead hreason] at hread
    have hreasonFree : ¬ advice <:+: (describeChapterFailure task).1.toList := by
      rw [hreason, hlead.advice_iff]
      exact hunadvised
    exact ⟨_, _, _, ⟨hnamed, h.titleLine, hfree, rfl, dots_advised hline hhint.line hreasonFree⟩, h.counted,
      hread, hstrip⟩

theorem read_iff (title : String) (task : ChapterTask) (final : Bool) (maxTries : ℕ) :
    parseChapterLog (chapterFailureLine title task final maxTries) = some (meant title task final maxTries) ↔
      Readable title task final maxTries := by
  cases final with
  | false => exact retrying_read_iff title task maxTries
  | true => exact skipped_read_iff title task maxTries

/-! ### Exceptions -/

theorem scheme_append {word rest : List Char} (h : scheme cs = some (word, rest)) : cs = word ++ rest := by
  obtain ⟨literal, -, hliteral⟩ := List.exists_of_findSome?_eq_some h
  split_ifs at hliteral with hstarts
  cases hliteral
  exact (List.prefix_iff_eq_append.mp hstarts).symm

theorem mem_urlQuery {url rest : List Char} (h : urlQuery cs = some (url, rest)) {c : Char}
    (hc : c ∈ url ∨ c ∈ rest) : c ∈ cs := by
  obtain ⟨⟨word, after⟩, hscheme, hquery⟩ := Option.bind_eq_some_iff.mp h
  rw [scheme_append hscheme, List.mem_append]
  simp only at hquery
  split at hquery
  · rename_i d query hdrop
    split_ifs at hquery
    cases hquery
    have hafter : ∀ e ∈ d :: query, e ∈ after := fun e he => (List.dropWhile_suffix _).subset (hdrop ▸ he)
    rcases hc with hurl | hrest
    · rcases List.mem_append.mp hurl with hword | haddress
      · exact .inl hword
      · exact .inr ((List.takeWhile_prefix _).subset haddress)
    · exact .inr (hafter c (List.mem_cons_of_mem d ((List.dropWhile_suffix _).subset hrest)))
  · cases hquery

theorem mem_dropQueries {fuel : ℕ} {c : Char} (h : c ∈ dropQueries fuel cs) : c ∈ cs := by
  induction fuel generalizing cs with
  | zero => simpa [dropQueries] using h
  | succ fuel ih =>
    cases cs with
    | nil => simp [dropQueries] at h
    | cons d cs =>
      rw [dropQueries] at h
      split at h
      · rename_i url rest hquery
        rcases List.mem_append.mp h with hurl | hrest
        · exact mem_urlQuery hquery (.inl hurl)
        · exact mem_urlQuery hquery (.inr (ih hrest))
      · rcases List.mem_cons.mp h with rfl | hrest
        · exact List.mem_cons_self
        · exact List.mem_cons_of_mem d (ih hrest)

theorem splitOnP_plain {p : Char → Bool} {part : List Char} (h : part ∈ cs.splitOnP p) {c : Char} (hc : c ∈ part) :
    p c = false := by
  induction cs generalizing part with
  | nil =>
    rw [List.splitOnP_nil, List.mem_singleton] at h
    rw [h] at hc
    cases hc
  | cons d cs ih =>
    rw [List.splitOnP_cons_eq_if_modifyHead] at h
    split_ifs at h with hd
    · rcases List.mem_cons.mp h with rfl | hrest
      · cases hc
      · exact ih hrest hc
    · cases hsplit : cs.splitOnP p with
      | nil => exact absurd hsplit (List.splitOnP_ne_nil p cs)
      | cons first rest =>
        rw [hsplit, List.modifyHead_cons] at h
        rcases List.mem_cons.mp h with rfl | hrest
        · rcases List.mem_cons.mp hc with rfl | hfirst
          · simpa using hd
          · exact ih (hsplit ▸ List.mem_cons_self) hfirst
        · exact ih (hsplit ▸ List.mem_cons_of_mem first hrest) hc

theorem mem_intercalate {parts : List (List Char)} {separator c : Char} (h : c ∈ [separator].intercalate parts) :
    (∃ part ∈ parts, c ∈ part) ∨ c = separator := by
  induction parts with
  | nil => cases h
  | cons part parts ih =>
    cases parts with
    | nil => exact .inl ⟨part, List.mem_singleton_self _, by simpa using h⟩
    | cons other parts =>
      rw [List.intercalate_cons_cons, List.append_assoc, List.mem_append, List.mem_append] at h
      rcases h with hpart | hseparator | hrest
      · exact .inl ⟨part, List.mem_cons_self, hpart⟩
      · exact .inr (List.mem_singleton.mp hseparator)
      · rcases ih hrest with ⟨found, hfound, hc⟩ | hc
        · exact .inl ⟨found, List.mem_cons_of_mem part hfound, hc⟩
        · exact .inr hc

theorem mem_oneLine {c : Char} (h : c ∈ oneLine cs) : isSpace c = false ∨ c = ' ' := by
  rcases mem_intercalate h with ⟨part, hpart, hc⟩ | hc
  · exact .inl (splitOnP_plain (List.mem_filter.mp hpart).1 hc)
  · exact .inr hc

theorem not_lineEnd {c : Char} (h : isSpace c = false ∨ c = ' ') : JavaScript.isLineEnd c = false := by
  rcases h with hspace | rfl
  · by_contra hend
    rw [Bool.not_eq_false, JavaScript.isLineEnd, decide_eq_true_eq] at hend
    rcases hend with rfl | rfl | hcode | hcode
    · cases hspace
    · cases hspace
    all_goals
      rw [isSpace, decide_eq_false_iff_not] at hspace
      omega
  · rfl

theorem shorten_line (h : OneLine cs) : OneLine (shorten cs) := by
  unfold shorten
  split_ifs
  · have hdots : OneLine ['…'] := by decide
    exact OneLine.append (fun c hc => h c (List.mem_of_mem_take hc)) hdots
  · exact h

theorem shown_line (name : String) (hline : OneLine cs) :
    OneLine (name ++ ": " ++ String.ofList cs).toList ↔ OneLine name.toList := by
  have hseparator : OneLine ": ".toList := by decide
  rw [String.toList_append, String.toList_append]
  refine ⟨fun h => h.left.left, fun h => (h.append hseparator).append ?_⟩
  rwa [String.toList_ofList]

/-- The text of an exception is put on one line; only its type's name could have another. -/
theorem describeException_line (exc : Exception) :
    OneLine (describeException exc).toList ↔ OneLine exc.typeName.toList := by
  have htext : OneLine (shorten (dropQueries (oneLine exc.text.toList).length (oneLine exc.text.toList))) :=
    shorten_line fun c hc => not_lineEnd (mem_oneLine (mem_dropQueries hc))
  rw [describeException]
  split_ifs
  · exact shown_line exc.typeName htext
  · rfl

/-! ### The round trip -/

/-- The page reads the line about a failed chapter as it was meant exactly if it is readable. -/
theorem chapterLog_read_iff (title : String) (result : JobProcessor.ChapterResult)
    (exception : Option Exception) (final : Bool) (maxTries : ℕ) :
    parseChapterLog (chapterFailureLine title (attempted result exception) final maxTries) =
        some (meant title (attempted result exception) final maxTries) ↔
      Readable title (attempted result exception) final maxTries :=
  read_iff title (attempted result exception) final maxTries

set_option maxRecDepth 4000 in
/-- The line about a chapter without a title is not read at all. -/
theorem untitled_not_read :
    parseChapterLog (chapterFailureLine "" (attempted .error none) false 5) = none ∧
      parseChapterLog (chapterFailureLine "" (attempted .error none) false 5) ≠
        some (meant "" (attempted .error none) false 5) := by
  have hnone : parseChapterLog (chapterFailureLine "" (attempted .error none) false 5) = none := rfl
  exact ⟨hnone, by rw [hnone]; exact (Option.some_ne_none _).symm⟩

end UniversityHelper.ChapterLog
