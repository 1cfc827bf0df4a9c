import UniversityHelper.Quiz

/-! The questions of a quiz page with their answer fields, and the form that the answers are
filled into. -/
namespace UniversityHelper.Quiz
open AnswerBank

def answerKey (id : String) : String := "answer" ++ id
def answertypeKey (id : String) : String := "answertype" ++ id

theorem answerKey_ne (id : String) : answerKey id ≠ answertypeKey id := by
  intro h
  have hlength := congrArg (fun key => key.toList.length) h
  simp [answerKey, answertypeKey, String.toList_append] at hlength

/-- A question as `_process_question` makes it and `handle_question` fills it in; its answer field
has at least the answer and the code of its type. -/
structure Question where
  id : String
  options : String
  type : QuestionType
  typeCode : String
  answerField : OrderedDict String String
  answerSource : Option Source
  asked : ∃ answer, answerField.get (answerKey id) = some answer
  coded : answerField.get (answertypeKey id) = some typeCode

def getQuestionType (typeCode : String) : QuestionType :=
  match typeCode with
  | "0" => .single
  | "1" => .multiple
  | "2" => .completion
  | "3" => .judgement
  | "4" => .other "shortanswer"
  | _ => .other "unknown"

/-- What `_process_question` reads of the page; `choices` are the results of `_extract_choices` and
`inputs` the names and values of the input fields. -/
structure QuestionDiv where
  data : String
  typeCode : String
  choices : List String
  inputs : List (String × String)

def addInput (id : String) (field : OrderedDict String String) (input : String × String) :
    OrderedDict String String :=
  if input.1 = "" ∨ contains input.1 "answer" = false then field
  else if id ≠ "" ∧ contains input.1 id = false then field
  else if (field.get input.1).isSome = true then field
  else field.set input.1 input.2

def initialField (div : QuestionDiv) : OrderedDict String String :=
  (OrderedDict.empty.set (answerKey div.data) "").set (answertypeKey div.data) div.typeCode

theorem get_addInput {id : String} {field : OrderedDict String String} {input : String × String}
    {key val : String} (h : field.get key = some val) :
    (addInput id field input).get key = some val := by
  rw [addInput]
  split_ifs with _ _ hknown
  · exact h
  · exact h
  · exact h
  · have hne : key ≠ input.1 := by
      rintro rfl
      rw [h] at hknown
      exact hknown rfl
    simpa [hne] using h

theorem get_addInputs {id : String} {field : OrderedDict String String}
    {inputs : List (String × String)} {key val : String} (h : field.get key = some val) :
    (inputs.foldl (addInput id) field).get key = some val := by
  induction inputs generalizing field with
  | nil => exact h
  | cons input inputs ih => exact ih (get_addInput h)

def processQuestion (div : QuestionDiv) : Question where
  id := div.data
  options := joinLines (div.choices.insertionSort (· ≤ ·))
  type := getQuestionType div.typeCode
  typeCode := div.typeCode
  answerField := div.inputs.foldl (addInput div.data) (initialField div)
  answerSource := none
  asked := ⟨"", get_addInputs (by simp [initialField, answerKey_ne])⟩
  coded := get_addInputs (by simp [initialField])

/-- `q["answerSource…"] = source`. -/
def Question.mark (q : Question) (source : Source) : Question := { q with answerSource := some source }

/-- `q["answerField"]["answer…"] = answer`. -/
def Question.store (q : Question) (answer : String) : Question where
  id := q.id
  options := q.options
  type := q.type
  typeCode := q.typeCode
  answerField := q.answerField.set (answerKey q.id) answer
  answerSource := q.answerSource
  asked := ⟨answer, by simp⟩
  coded := by simpa [(answerKey_ne q.id).symm] using q.coded

abbrev Form := String → Option String

/-- The inner loop of `fill_answers_into_form`. -/
def fillEntries (isSave : Bool) (src : Option Source) (form : Form)
    (entries : List (String × String)) : Form :=
  entries.foldl (fun form entry =>
    if "answer".toList <+: entry.1.toList then
      Function.update form entry.1
        (some (if isSave = true ∧ src ≠ some .cover then "" else entry.2))
    else form) form

def fillQuestion (isSave : Bool) (form : Form) (q : Question) : Form :=
  let form := fillEntries isSave q.answerSource form q.answerField.entries
  match q.answerField.get (answertypeKey q.id) with
  | some typeCode => Function.update form (answertypeKey q.id) (some typeCode)
  | none => form

def fillAnswersIntoForm (questions : List Question) (isSave : Bool) (form : Form) : Form :=
  questions.foldl (fillQuestion isSave) form

section Filling
variable {isSave : Bool} {src : Option Source} {form : Form} {key val : String}

theorem fillEntries_absent {entries : List (String × String)} (h : key ∉ entries.map Prod.fst) :
    fillEntries isSave src form entries key = form key := by
  induction entries generalizing form with
  | nil => rfl
  | cons entry entries ih =>
    rw [List.map_cons, List.mem_cons, not_or] at h
    rw [fillEntries, List.foldl_cons]
    refine (ih h.2).trans ?_
    by_cases hprefix : "answer".toList <+: entry.1.toList
    · rw [if_pos hprefix]
      exact Function.update_of_ne h.1 _ _
    · rw [if_neg hprefix]

theorem fillEntries_present {entries : List (String × String)}
    (distinct : (entries.map Prod.fst).Nodup) (h : (key, val) ∈ entries)
    (hkey : "answer".toList <+: key.toList) :
    fillEntries isSave src form entries key =
      some (if isSave = true ∧ src ≠ some .cover then "" else val) := by
  induction entries generalizing form with
  | nil => cases h
  | cons entry entries ih =>
    rw [List.map_cons, List.nodup_cons] at distinct
    rw [fillEntries, List.foldl_cons]
    rcases List.mem_cons.mp h with rfl | hrest
    · refine (fillEntries_absent distinct.1).trans ?_
      rw [if_pos hkey]
      exact Function.update_self ..
    · exact ih distinct.2 hrest

theorem answer_first (id : String) : "answer".toList <+: (answerKey id).toList := by
  rw [answerKey, String.toList_append]
  exact List.prefix_append _ _

theorem fillQuestion_absent {q : Question} (h : q.answerField.get key = none) :
    fillQuestion isSave form q key = form key := by
  have hne : key ≠ answertypeKey q.id := by
    rintro rfl
    rw [q.coded] at h
    cases h
  simp only [fillQuestion, q.coded, Function.update_of_ne hne]
  exact fillEntries_absent (OrderedDict.get_eq_none.mp h)

theorem fillQuestion_answer {q : Question} {answer : String}
    (h : q.answerField.get (answerKey q.id) = some answer) :
    fillQuestion isSave form q (answerKey q.id) =
      some (if isSave = true ∧ q.answerSource ≠ some .cover then "" else answer) := by
  simp only [fillQuestion, q.coded, Function.update_of_ne (answerKey_ne q.id)]
  exact fillEntries_present q.answerField.distinct (OrderedDict.get_eq_some.mp h) (answer_first q.id)

theorem fillQuestion_answertype (q : Question) :
    fillQuestion isSave form q (answertypeKey q.id) = some q.typeCode := by
  simp only [fillQuestion, q.coded, Function.update_self]

theorem fill_absent {questions : List Question}
    (h : ∀ q ∈ questions, q.answerField.get key = none) :
    fillAnswersIntoForm questions isSave form key = form key := by
  induction questions generalizing form with
  | nil => rfl
  | cons q questions ih =>
    rw [fillAnswersIntoForm, List.foldl_cons]
    refine (ih fun p hp => h p (List.mem_cons_of_mem q hp)).trans ?_
    exact fillQuestion_absent (h q List.mem_cons_self)

/-- A key that no later question has keeps what its question writes. -/
theorem fill_present {before after : List Question} {q : Question}
    (own : ∀ form, fillQuestion isSave form q key = some val)
    (later : ∀ p ∈ after, p.answerField.get key = none) :
    fillAnswersIntoForm (before ++ q :: after) isSave form key = some val := by
  rw [fillAnswersIntoForm, List.foldl_append, List.foldl_cons]
  exact (fill_absent later).trans (own _)

end Filling
end UniversityHelper.Quiz
