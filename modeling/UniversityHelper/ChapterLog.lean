import UniversityHelper.JavaScriptRegExp
import UniversityHelper.JobProcessor
import UniversityHelper.LearningWorker

/-! The log lines about failed chapters: how `chapter_failure_callback` writes them, and how
`parseChapterLog` reads them on the page. -/
namespace UniversityHelper.ChapterLog
open JobProcessor (ChapterTask)
open JavaScript (Delimiter Matcher)

/-! ### The worker -/

/-- An exception by `type(exc).__name__` and `str(exc)`. -/
structure Exception where
  typeName : String
  text : String

def isQuote (c : Char) : Bool := c.toNat = 34 ∨ c.toNat = 39

/-- `[^\s'"]`. -/
def isQueryChar (c : Char) : Bool := !isSpace c && !isQuote c

/-- `[^\s?#'"]`. -/
def isUrlChar (c : Char) : Bool := isQueryChar c && c ≠ '?' && c ≠ '#'

/-- `https?://`, and what is left after it. -/
def scheme (cs : List Char) : Option (List Char × List Char) :=
  ["https://".toList, "http://".toList].findSome? fun word =>
    if word <+: cs then some (word, cs.drop word.length) else none

/-- A match of `_URL_QUERY` at the beginning of the text: its first group, and what is left after it. -/
def urlQuery (cs : List Char) : Option (List Char × List Char) :=
  (scheme cs).bind fun (word, rest) =>
    let address := rest.takeWhile isUrlChar
    match rest.dropWhile isUrlChar with
    | c :: query =>
      if address ≠ [] ∧ (c = '?' ∨ c = '#') then some (word ++ address, query.dropWhile isQueryChar)
      else none
    | [] => none

/-- `_URL_QUERY.sub(r"\1", text)`; every match and every other character takes one of the `fuel`. -/
def dropQueries : ℕ → List Char → List Char
  | 0, cs => cs
  | _, [] => []
  | fuel + 1, c :: cs =>
    match urlQuery (c :: cs) with
    | some (url, rest) => url ++ dropQueries fuel rest
    | none => c :: dropQueries fuel cs

/-- `" ".join(text.split())`. -/
def oneLine (cs : List Char) : List Char := [' '].intercalate ((cs.splitOnP isSpace).filter (· ≠ []))

def limit : ℕ := 200

def shorten (text : List Char) : List Char :=
  if limit < text.length then text.take (limit - 1) ++ ['…'] else text

def describeException (exc : Exception) : String :=
  let line := oneLine exc.text.toList
  let text := shorten (dropQueries line.length line)
  if text ≠ [] then exc.typeName ++ ": " ++ String.ofList text else exc.typeName

def retryHint : String := "稍后重新开始任务；如果每次都失败，请把任务 ID 发给管理员。"
def notOpenReason : String := "章节还没开放（通常要先完成上一节的章节测验，也可能已过截止时间）"
def notOpenHint : String := "在学习通完成上一节的测验后重试，或在「学习配置」把「未开放章节策略」改成「跳过」。"
def jobFailedReason : String := "有任务点没能完成（视频、文档或章节测验提交失败）"
def jobFailedHint : String := "稍后重试；章节测验需要在「学习配置」里配置可用的题库。"

/-- Reason and next step for a failed attempt. -/
def describeChapterFailure (task : ChapterTask) : String × String :=
  if task.result = .notOpen then (notOpenReason, notOpenHint)
  else if task.error ≠ "" then ("处理时出错：" ++ task.error, retryHint)
  else (jobFailedReason, jobFailedHint)

/-- A chapter after an attempt with this result, or with this exception. -/
def attempted (result : JobProcessor.ChapterResult) (exception : Option Exception) : ChapterTask :=
  match exception with
  | some exc => { result := result, error := describeException exc, errorType := exc.typeName }
  | none => { result := result }

/-- The line that `chapter_failure_callback` writes. -/
def chapterFailureLine (title : String) (task : ChapterTask) (final : Bool) (maxTries : ℕ) : String :=
  let (reason, hint) := describeChapterFailure task
  if final = true then
    "章节「" ++ title ++ "」重试 " ++ toString maxTries ++ " 次仍失败，已跳过。原因：" ++ reason ++ "。建议：" ++ hint
  else "章节「" ++ title ++ "」处理失败，正在自动重试（最多 " ++ toString maxTries ++ " 次）。原因：" ++ reason

theorem chapterFailureLine_maxTries (title : String) (task : ChapterTask) (final : Bool) :
    chapterFailureLine title task final LearningWorker.maxTries =
      (LearningWorker.chapterFailureLine title (describeChapterFailure task).1
        (describeChapterFailure task).2 final).1 := by
  cases final <;> rfl

/-! ### The page -/

inductive Kind
  | retrying
  | skipped
  deriving DecidableEq, Repr

/-- What `parseChapterLog` returns; `tries` is `none` for infinity, `hint` for a chapter that is
being retried. -/
structure Entry where
  kind : Kind
  chapter : String
  tries : Option ℕ
  reason : String
  hint : Option String
  deriving DecidableEq

def isPeriod (c : Char) : Bool := c = '。' ∨ c = '.'

def stripPeriod (text : List Char) : String :=
  String.ofList ((JavaScript.trimChars text).rdropWhile isPeriod)

/-- `」处理失败，正在自动重试（最多 (\d+) 次）。原因：`. -/
def retryDelimiter : Delimiter where
  mark := '」'
  before := "处理失败，正在自动重试（最多 ".toList
  next := ' '
  after := "次）。原因：".toList
  mark_before := by decide
  mark_after := by decide
  mark_digit := rfl
  next_digit := rfl
  before_line := by decide
  after_line := by decide

/-- `」重试 (\d+) 次仍失败，已跳过。原因：`. -/
def skippedDelimiter : Delimiter where
  mark := '」'
  before := "重试 ".toList
  next := ' '
  after := "次仍失败，已跳过。原因：".toList
  mark_before := by decide
  mark_after := by decide
  mark_digit := rfl
  next_digit := rfl
  before_line := by decide
  after_line := by decide

def opening : List Char := "章节「".toList
def advice : List Char := "。建议：".toList

def chapterRetrying : Matcher (List Char × List Char × List Char) :=
  JavaScript.literal opening (JavaScript.dotsPlus (retryDelimiter.matcher JavaScript.restOfLine))

/-- `(?:。建议：(.*))?$`. -/
def adviceEnd : Matcher (Option (List Char)) := fun cs =>
  match JavaScript.literal advice JavaScript.restOfLine cs with
  | some hint => some (some hint)
  | none => if cs = [] then some none else none

def chapterSkipped : Matcher (List Char × List Char × List Char × Option (List Char)) :=
  JavaScript.literal opening (JavaScript.dotsPlus (skippedDelimiter.matcher (JavaScript.dots adviceEnd)))

def parseChapterLog (message : String) : Option Entry :=
  let text := JavaScript.trimChars message.toList
  match chapterSkipped text with
  | some (chapter, tries, reason, hint) =>
    some ⟨.skipped, String.ofList chapter, JavaScript.number tries, stripPeriod reason,
      some (stripPeriod (hint.getD []))⟩
  | none =>
    match chapterRetrying text with
    | some (chapter, tries, reason) =>
      some ⟨.retrying, String.ofList chapter, JavaScript.number tries, stripPeriod reason, none⟩
    | none => none

end UniversityHelper.ChapterLog
