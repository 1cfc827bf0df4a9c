import UniversityHelper.ChapterLogReading
import UniversityHelper.TaskInsights

/-! What the page makes of each kind of line in the log of a learning task. -/
namespace UniversityHelper.TaskInsights
open ChapterLog (Kind advice chapterFailureLine chapterRetrying chapterSkipped describeChapterFailure opening
  parseChapterLog retryDelimiter shownError skippedDelimiter)
open JavaScript (Delimiter OneLine trim trimChars)
open JobProcessor (ChapterTask)
open TaskAdmission (Instant)

variable {message title level : String} {task : ChapterTask} {now : Instant} {found : Collected}

theorem parseChapterLog_trim (message : String) : parseChapterLog (trim message) = parseChapterLog message := by
  simp only [parseChapterLog, trim, String.toList_ofList, JavaScript.trimChars_trimChars]

theorem literal_none {β : Type*} {next : JavaScript.Matcher β} {c d : Char} {text cs : List Char} (h : c ≠ d) :
    JavaScript.literal (c :: text) next (d :: cs) = none := by
  rw [JavaScript.literal, if_neg]
  intro hstarts
  exact h (List.cons_prefix_cons.mp hstarts).1

/-! ### Other lines -/

/-- The page sees neither the start of a course in a line nor a chapter. -/
def Quiet (message : String) : Prop := started (trim message) = none ∧ parseChapterLog (trim message) = none

/-- A word with which neither the start of a course begins nor a line about a chapter. -/
structure Lead (word : List Char) : Prop where
  nonempty : word ≠ []
  plain : ∀ c ∈ word, JavaScript.isSpace c = false ∧ c ≠ '章' ∧ c ≠ '开'
  short : word.length ≤ "Start course:".toList.length
  other : ¬ word.map Char.toUpper <+: "Start course:".toList.map Char.toUpper

def firstWord (text : String) : List Char := text.toList.takeWhile fun c => !JavaScript.isSpace c

/-- A line that begins with such a word. -/
def HasLead (message : String) : Prop := ∃ word rest, Lead word ∧ message.toList = word ++ rest

/-- Whether the first word is such a word. -/
def leads (text : String) : Bool :=
  firstWord text ≠ [] ∧ (firstWord text).all (fun c => c ≠ '章' && c ≠ '开') = true ∧
    (firstWord text).length ≤ "Start course:".toList.length ∧
      ¬ (firstWord text).map Char.toUpper <+: "Start course:".toList.map Char.toUpper

theorem hasLead_of {text : String} (h : leads text = true) : HasLead text := by
  rw [leads, decide_eq_true_eq] at h
  obtain ⟨hne, hplain, hshort, hother⟩ := h
  refine ⟨firstWord text, _, ⟨hne, ?_, hshort, hother⟩, List.takeWhile_append_dropWhile.symm⟩
  intro c hc
  have hspace := List.mem_takeWhile_imp (p := fun c => !JavaScript.isSpace c) hc
  have hchinese := List.all_eq_true.mp hplain c hc
  rw [Bool.and_eq_true, decide_eq_true_eq, decide_eq_true_eq] at hchinese
  exact ⟨by simpa using hspace, hchinese⟩

theorem HasLead.append (h : HasLead message) (more : String) : HasLead (message ++ more) := by
  obtain ⟨word, rest, hlead, hmessage⟩ := h
  exact ⟨word, rest ++ more.toList, hlead, by rw [String.toList_append, hmessage, List.append_assoc]⟩

theorem startCourse_none {word : List Char} (h : Lead word) (more : List Char) :
    startCourse (word ++ more) = none := by
  rw [startCourse, JavaScript.literalAnyCase, if_neg]
  intro hsame
  refine h.other ?_
  rw [← hsame]
  exact (List.prefix_take_iff.mpr ⟨List.prefix_append word more, h.short⟩).map _

theorem parseChapterLog_none {c : Char} {rest : List Char} (hspace : JavaScript.isSpace c = false)
    (hchapter : c ≠ '章') (hmessage : message.toList = c :: rest) :
    parseChapterLog (trim message) = none := by
  have htrim : ∃ more, trimChars message.toList = c :: more := by
    rw [hmessage, ChapterLog.trimChars_of_head hspace, ← List.singleton_append, ChapterLog.rdropWhile_append_of_all]
    · exact ⟨_, rfl⟩
    · intro d hd
      rwa [List.mem_singleton.mp hd]
  obtain ⟨more, hmore⟩ := htrim
  have hopening : ∀ {β : Type} {next : JavaScript.Matcher β} {cs : List Char},
      JavaScript.literal opening next (c :: cs) = none := fun {_ _ _} => literal_none (Ne.symm hchapter)
  rw [parseChapterLog_trim]
  simp only [parseChapterLog, hmore, chapterSkipped, chapterRetrying, hopening]

theorem HasLead.quiet (h : HasLead message) : Quiet message := by
  obtain ⟨word, rest, hlead, hmessage⟩ := h
  obtain ⟨c, word, rfl⟩ := List.exists_cons_of_ne_nil hlead.nonempty
  obtain ⟨hspace, hchapter, hcourse⟩ := hlead.plain c List.mem_cons_self
  refine ⟨?_, parseChapterLog_none hspace hchapter hmessage⟩
  have htrim : trimChars message.toList = c :: (word ++ rest.rdropWhile JavaScript.isSpace) := by
    rw [hmessage, List.cons_append, ChapterLog.trimChars_of_head hspace, ← List.cons_append,
      ChapterLog.rdropWhile_append_of_all fun d hd => (hlead.plain d hd).1, List.cons_append]
  have hchinese : courseStarted (c :: (word ++ rest.rdropWhile JavaScript.isSpace)) = none :=
    literal_none (Ne.symm hcourse)
  have henglish := startCourse_none hlead (rest.rdropWhile JavaScript.isSpace)
  rw [List.cons_append] at henglish
  simp only [started, trim, String.toList_ofList, htrim, hchinese, henglish, Option.or_none, Option.map_none]

theorem collectLine_quiet (h : Quiet message) : collectLine found ⟨now, message, level⟩ = found := by
  simp only [collectLine, h.1, h.2]

/-! ### The start of a course -/

theorem started_header {label : String} (hline : OneLine (trimChars label.toList)) :
    started (trim ("Start course: " ++ label)) = some (trim label) := by
  have hlast : "Start course:".toList.rdropWhile JavaScript.isSpace = "Start course:".toList := by decide
  have hhead : "Start course:".toList = 'S' :: "tart course:".toList := by decide
  have hmessage : ("Start course: " ++ label).toList = "Start course:".toList ++ (' ' :: label.toList) := by
    have hsplit : "Start course: ".toList = "Start course:".toList ++ [' '] := by decide
    rw [String.toList_append, hsplit, List.append_assoc, List.singleton_append]
  have htrim : trimChars ("Start course: " ++ label).toList =
      "Start course:".toList ++ (' ' :: label.toList).rdropWhile JavaScript.isSpace := by
    rw [hmessage, hhead, List.cons_append, ChapterLog.trimChars_of_head rfl, ← List.cons_append, ← hhead,
      ChapterLog.rdropWhile_append_of_self hlast]
  have hrest : ((' ' :: label.toList).rdropWhile JavaScript.isSpace).dropWhile JavaScript.isSpace =
      trimChars label.toList := by
    rw [JavaScript.dropWhile_rdropWhile, List.dropWhile_cons_of_pos rfl, trimChars]
  have hmatch : startCourse (trimChars ("Start course: " ++ label).toList) = some (trimChars label.toList) := by
    rw [htrim, startCourse, JavaScript.literalAnyCase_append, JavaScript.spaces_restOfLine, hrest,
      JavaScript.restOfLine, if_pos hline]
  simp only [started, trim, String.toList_ofList, hmatch, Option.some_or, Option.map_some,
    JavaScript.trimChars_trimChars]

/-! ### Lines about chapters -/

/-- The titles that the delimiters cannot occur in. -/
structure Plain (title : String) : Prop where
  nonempty : title ≠ ""
  line : OneLine title.toList
  unmarked : '」' ∉ title.toList

theorem Plain.free (h : Plain title) {d : Delimiter} (hmark : d.mark = '」') : ¬ d.OccursIn title.toList.tail := by
  rintro ⟨run, -, hinside⟩
  have hmem : d.mark ∈ title.toList.tail := hinside.subset (by simp [Delimiter.text])
  rw [hmark] at hmem
  exact h.unmarked (List.mem_of_mem_tail hmem)

theorem Plain.toList_ne (h : Plain title) : title.toList ≠ [] := fun hnil =>
  h.nonempty (String.toList_eq_nil_iff.mp hnil)

theorem started_opening {text : String} {rest : List Char} (h : trimChars text.toList = opening ++ rest) :
    started (trim text) = none := by
  have hopening : opening = '章' :: opening.tail := by decide
  have henglish : startCourse (opening ++ rest) = none := by
    rw [startCourse, JavaScript.literalAnyCase, if_neg]
    intro hsame
    have hlength : "Start course:".toList.length = "tart course:".toList.length + 1 := by decide
    have hupper : "Start course:".toList.map Char.toUpper = 'S' :: "TART COURSE:".toList := by decide
    rw [hopening, List.cons_append, hlength, List.take_succ_cons, List.map_cons, hupper, List.cons.injEq] at hsame
    exact absurd hsame.1 (by decide)
  have hchinese : courseStarted (opening ++ rest) = none := by
    rw [hopening, List.cons_append]
    exact literal_none (by decide)
  simp only [started, trim, String.toList_ofList, h, henglish, hchinese, Option.or_none, Option.map_none]

/-- What the page reads out of a line about a chapter, apart from the texts it shows. -/
def Reads (message : String) (kind : Kind) (title : String) : Prop :=
  started (trim message) = none ∧
    ∃ entry, parseChapterLog (trim message) = some entry ∧ entry.kind = kind ∧ entry.chapter = title

/-- The line about a first failure is read as one, unless its error looks like the middle of a line
about a skipped chapter. -/
theorem retryLine_reads (hplain : Plain title) (hline : OneLine (shownError task))
    (hfree : ¬ skippedDelimiter.OccursIn (shownError task)) (maxTries : ℕ) :
    Reads (chapterFailureLine title task false maxTries) .retrying title := by
  obtain ⟨lead, hlead, hreason⟩ := ChapterLog.reason_eq task
  have hrun := ChapterLog.isNumber_tries maxTries
  have htrim := ChapterLog.retryLine_trim title task maxTries
  refine ⟨started_opening htrim, ?_⟩
  have hstarts : (shownError task).rdropWhile JavaScript.isSpace <+: shownError task :=
    List.rdropWhile_prefix _ _
  have hkept : OneLine ((describeChapterFailure task).1.toList.rdropWhile JavaScript.isSpace) := by
    rw [hreason, hlead.trim_append, hlead.line_iff]
    exact fun c hc => hline c (hstarts.subset hc)
  have hskipped : chapterSkipped (trimChars (chapterFailureLine title task false maxTries).toList) = none := by
    rw [htrim, ChapterLog.chapterSkipped_opening,
      ChapterLog.dotsPlus_skipped_none hrun hplain.toList_ne hplain.line hkept]
    refine ⟨hplain.free rfl, ?_⟩
    rw [hreason, hlead.trim_append, hlead.occurs_iff]
    rintro ⟨run, hnumber, hinside⟩
    exact hfree ⟨run, hnumber, hinside.trans hstarts.isInfix⟩
  have hretrying : chapterRetrying (trimChars (chapterFailureLine title task false maxTries).toList) =
      some (title.toList, Nat.toDigits 10 maxTries,
        (describeChapterFailure task).1.toList.rdropWhile JavaScript.isSpace) := by
    rw [htrim, ChapterLog.chapterRetrying_opening, Delimiter.dotsPlus_title ChapterLog.restOfLine_lines hrun]
    exact ⟨hplain.toList_ne, hplain.line, hplain.free rfl, rfl, if_pos hkept⟩
  rw [parseChapterLog_trim]
  simp only [parseChapterLog, hskipped, hretrying]
  exact ⟨_, rfl, rfl, String.ofList_toList⟩

theorem skippedLine_reads (hplain : Plain title) (hline : OneLine (shownError task)) (maxTries : ℕ) :
    Reads (chapterFailureLine title task true maxTries) .skipped title := by
  obtain ⟨lead, hlead, hreason⟩ := ChapterLog.reason_eq task
  have hrun := ChapterLog.isNumber_tries maxTries
  have htrim := ChapterLog.skippedLine_trim title task maxTries
  refine ⟨started_opening htrim, ?_⟩
  have hwhole : OneLine ((describeChapterFailure task).1.toList ++
      (advice ++ (describeChapterFailure task).2.toList)) := by
    rw [hreason]
    exact (hlead.line_iff.mpr hline).append
      (ChapterLog.advice_line.append (ChapterLog.hint_described task).line)
  obtain ⟨⟨reason, hint⟩, htail⟩ :=
    Option.ne_none_iff_exists'.mp ((ChapterLog.adviceEnd_lines _).mpr hwhole)
  have hskipped : chapterSkipped (trimChars (chapterFailureLine title task true maxTries).toList) =
      some (title.toList, Nat.toDigits 10 maxTries, reason, hint) := by
    rw [htrim, ChapterLog.chapterSkipped_opening, Delimiter.dotsPlus_title ChapterLog.adviceEnd_lines hrun]
    exact ⟨hplain.toList_ne, hplain.line, hplain.free rfl, rfl, htail⟩
  rw [parseChapterLog_trim]
  simp only [parseChapterLog, hskipped]
  exact ⟨_, rfl, rfl, String.ofList_toList⟩

theorem collectLine_retrying (h : Reads message .retrying title) :
    ∃ reason tries, collectLine found ⟨now, message, level⟩ =
      { found with
        retrying := found.retrying.set (key found.course title) ⟨found.course, title, reason, tries, now⟩ } := by
  obtain ⟨hstarted, entry, hentry, hkind, rfl⟩ := h
  exact ⟨entry.reason, entry.tries, by simp only [collectLine, hstarted, hentry, hkind]⟩

theorem collectLine_skipped (h : Reads message .skipped title) :
    collectLine found ⟨now, message, level⟩ =
      { found with retrying := found.retrying.erase (key found.course title) } := by
  obtain ⟨hstarted, entry, hentry, hkind, rfl⟩ := h
  simp only [collectLine, hstarted, hentry, hkind]

end UniversityHelper.TaskInsights
