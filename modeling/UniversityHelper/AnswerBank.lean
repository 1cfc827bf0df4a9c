import UniversityHelper.OrderedDict
import UniversityHelper.PythonText

/-! `Tiku`: what counts as an answer to a question of a given type, the answer cache that all
question banks of the process share, and `query`, which asks the cache before it asks the bank. -/
namespace UniversityHelper.AnswerBank

inductive QuestionType
  | single | multiple | completion | judgement
  | other (text : String)
  deriving DecidableEq, Repr

inductive Provider
  | tikuYanxi | tikuGo | tikuLike | tikuAdapter | localCache | ai | siliconFlow
  deriving DecidableEq, Repr

/-- `isinstance(self, (AI, SiliconFlow))`. -/
def Provider.lenient : Provider → Bool
  | .ai | .siliconFlow => true
  | _ => false

structure Config where
  trueList : Option String
  falseList : Option String

def defaultTrue : List String := ["正确", "对", "T", "True", "true"]
def defaultFalse : List String := ["错误", "错", "F", "False", "false"]

/-- `[s for s in raw.split(",") if s] or default`, where something is configured. -/
def judgementList (default : List String) (raw : Option String) : List String :=
  match raw with
  | none => default
  | some raw =>
    let entries := ((raw.toList.splitOn ',').map String.ofList).filter fun entry => entry ≠ ""
    if entries = [] then default else entries

theorem judgementList_ne_nil {default : List String} (h : default ≠ []) (raw : Option String) :
    judgementList default raw ≠ [] := by
  unfold judgementList
  split
  · exact h
  · dsimp only
    split
    · exact h
    · assumption

/-- A bank after `init_tiku`: it is disabled, or has entries in both lists. -/
structure Tiku where
  provider : Provider
  disable : Bool
  trueList : List String
  falseList : List String
  usable : disable = false → trueList ≠ [] ∧ falseList ≠ []

/-- `init_tiku`; `disabled` says that the bank was disabled before, or disables itself in
`_init_tiku`. -/
def initTiku (provider : Provider) (conf : Option Config) (disabled : Bool) : Tiku :=
  match conf with
  | none => ⟨provider, true, [], [], by simp⟩
  | some conf =>
    ⟨provider, disabled, judgementList defaultTrue conf.trueList,
      judgementList defaultFalse conf.falseList, fun _ =>
        ⟨judgementList_ne_nil (by decide) _, judgementList_ne_nil (by decide) _⟩⟩

def cutChars : List Char :=
  ['\n', ',', '，', '|', '\r', '\t', '#', '*', '-', '_', '+', '@', '~', '/', '\\', '.', '&', ' ', '、']

/-- `[opt.strip() for opt in answer.split(char) if opt.strip()]`. -/
def splitOptions (answer : String) (c : Char) : List String :=
  ((answer.toList.splitOn c).map fun part => strip (String.ofList part)).filter fun part => part ≠ ""

def cut (answer : String) : Option (List String) :=
  match (cutChars.filter fun c => c ∈ answer.toList).find? fun c => splitOptions answer c ≠ [] with
  | some c => some (splitOptions answer c)
  | none => if strip answer = "" then none else some [strip answer]

def checkSingle (answer : String) : Bool := (cut answer).any fun options => options.length = 1
def checkMultiple (answer : String) : Bool := (cut answer).any fun options => 0 < options.length
def checkCompletion (answer : String) : Bool := 0 < answer.length

def checkJudgement (answer : String) (trueList falseList : List String) : ℤ :=
  if answer ∈ trueList then 1 else if answer ∈ falseList then 0 else -1

def checkAnswer (answer : String) (type : QuestionType) (tiku : Tiku) : Bool :=
  match type with
  | .single => checkSingle answer && checkJudgement answer tiku.trueList tiku.falseList = -1
  | .multiple => checkMultiple answer && checkJudgement answer tiku.trueList tiku.falseList = -1
  | .completion => checkCompletion answer
  | .judgement => checkJudgement answer tiku.trueList tiku.falseList ≠ -1
  | .other _ => true

def trueMarkers : List String := ["正确", "对", "true", "√", "yes", "right", "correct"]
def falseMarkers : List String := ["错误", "错", "false", "×", "no", "wrong", "incorrect"]

def hits (markers : List String) (text : String) : Bool :=
  markers.any fun marker => contains text marker || contains (lower text) marker

def normalizeJudgementAnswer (tiku : Tiku) (answer : String) : Option String :=
  if answer = "" then none
  else
    let text := strip answer
    if text ∈ tiku.trueList then some text
    else if text ∈ tiku.falseList then some text
    else if hits trueMarkers text && !hits falseMarkers text then some (tiku.trueList.headD "正确")
    else if hits falseMarkers text && !hits trueMarkers text then some (tiku.falseList.headD "错误")
    else none

/-- `judgement_select`; `none` stands for the random choice. -/
def judgementSelect (tiku : Tiku) (answer : String) : Option Bool :=
  if tiku.disable = true then some false
  else if strip answer ∈ tiku.trueList then some true
  else if strip answer ∈ tiku.falseList then some false
  else none

/-- A title that ends with a score loses it: `（\d+\.\d+分）$`. -/
def dropScore (title : List Char) : List Char :=
  match title.reverse with
  | '）' :: '分' :: rest =>
    match rest.span isDecimal with
    | (_ :: _, '.' :: rest) =>
      match rest.span isDecimal with
      | (_ :: _, '（' :: rest) => rest.reverse
      | _ => title
    | _ => title
  | _ => title

/-- The two substitutions of `query`; `$` also matches before a newline that ends the text. -/
def trimTitle (title : String) : String :=
  let title := title.toList.dropWhile isDecimal
  String.ofList (if title.getLast? = some '\n' then dropScore title.dropLast ++ ['\n']
    else dropScore title)

abbrev Cache := OrderedDict String String

/-- `title` is the one after `_apply_ocr_to_title_if_needed`. -/
structure Question where
  title : String
  type : QuestionType

/-- `fetched` is what `_query` answers. -/
structure Call where
  tiku : Tiku
  question : Question
  fetched : Option String

/-- An empty answer counts as none, here and in the cache. -/
def Call.answer (c : Call) : Option String := c.fetched.filter fun answer => answer ≠ ""

/-- `get_cache` for the title as `query` trims it. -/
def cached (cache : Cache) (c : Call) : Option String :=
  (cache.get (trimTitle c.question.title)).filter fun answer => answer ≠ ""

def query (cache : Cache) (c : Call) : Option String × Cache :=
  if c.tiku.disable = true then (none, cache)
  else
    let title := trimTitle c.question.title
    match cached cache c with
    | some answer => (some (strip answer), cache)
    | none =>
      match c.answer with
      | none => (none, cache)
      | some answer =>
        if c.tiku.provider.lenient = true then
          if c.question.type = .judgement then
            match normalizeJudgementAnswer c.tiku (strip answer) with
            | none => (none, cache)
            | some normalized => (some normalized, cache.set title normalized)
          else (some (strip answer), cache.set title (strip answer))
        else if checkAnswer (strip answer) c.question.type c.tiku = true then
          (some (strip answer), cache.set title (strip answer))
        else (none, cache)

def cacheAfter (cache : Cache) (calls : List Call) : Cache :=
  calls.foldl (fun cache c => (query cache c).2) cache

example : trimTitle "12世界上有（3.0分）" = "世界上有" := by decide

end UniversityHelper.AnswerBank
