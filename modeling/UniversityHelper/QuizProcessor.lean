import UniversityHelper.Machine
import UniversityHelper.QuizForm
import UniversityHelper.Threads

/-! `QuizAnswerProcessor.process_questions` in its two modes. In the concurrent one the main thread
submits every question, the workers of the pool answer them, and the main thread collects the
results in the order in which they are done. -/
namespace UniversityHelper.Quiz
open AnswerBank

/-- What the provider does with a question. -/
inductive Reply
  | answers (res : Option String)
  | raises

/-- A question with the reply to it and with what is drawn for it, by `handle_question` and by
`_fallback_random_answer`. -/
structure Item where
  question : Question
  reply : Reply
  chance : Chance
  fallback : Chance

section Process
variable (u : Unicode) (tiku : Tiku)

/-- The source and the answer of a question whose provider does not raise. -/
def Item.handled (item : Item) (res : Option String) : Source × String :=
  handleQuestion u tiku item.chance item.question.type item.question.options res

def fallbackAnswer (item : Item) : String :=
  randomAnswer item.fallback item.question.type item.question.options

/-- The source and the answer that a question ends up with. -/
def Item.chosen (item : Item) : Source × String :=
  match item.reply with
  | .answers res => item.handled u tiku res
  | .raises => (.random, fallbackAnswer item)

def Item.settled (item : Item) : Question :=
  (item.question.mark (item.chosen u tiku).1).store (item.chosen u tiku).2

def isCover (q : Question) : Bool := q.answerSource = some .cover

/-- The loop of the sequential mode, with the questions and the number found so far; an exception
of the provider leaves it. -/
def processSequential : List Item → List Question → ℕ → Option (List Question × ℕ)
  | [], done, found => some (done, found)
  | item :: items, done, found =>
    match item.reply with
    | .answers _ =>
      let q := item.settled u tiku
      processSequential items (done ++ [q]) (if isCover q = true then found + 1 else found)
    | .raises => none

/-- Where the call of `handle_question` for a question stands: `decided` before `inc_found`,
`counted` after it, `finished` and `failed` once its future is done. -/
inductive Stage
  | queued | running
  | decided (answer : String)
  | counted (answer : String)
  | finished | failed | collected
  deriving DecidableEq, Repr

/-- A worker of the pool is at it. -/
def Stage.busy : Stage → Bool
  | .running | .decided _ | .counted _ => true
  | .queued | .finished | .failed | .collected => false

/-- The main thread. -/
inductive Phase
  | submitting (submitted : ℕ)
  | collecting
  | returned
  deriving DecidableEq, Repr

structure State (n : ℕ) where
  phase : Phase
  stage : Fin n → Stage
  question : Fin n → Question
  found : ℕ

inductive Action (n : ℕ)
  | submit
  | begin (i : Fin n)
  | query (i : Fin n)
  | count (i : Fin n)
  | store (i : Fin n)
  | collect (i : Fin n)
  | leave

/-- `max(1, int(ai_concurrency))`, where `none` is what `int` does not accept. -/
def concurrency (aiConcurrency : Option ℤ) : ℕ := (max 1 (aiConcurrency.getD 3)).toNat

section State
variable {n : ℕ}

def State.goto (s : State n) (i : Fin n) (next : Stage) : State n :=
  { s with stage := Function.update s.stage i next }

def State.write (s : State n) (i : Fin n) (q : Question) : State n :=
  { s with question := Function.update s.question i q }

/-- The future of question `i` is in the queue of the pool, or was. -/
def State.submitted (s : State n) (i : Fin n) : Bool :=
  match s.phase with
  | .submitting submitted => i < submitted
  | .collecting | .returned => true

/-- The number of workers that are at a question. -/
def State.busyWorkers (s : State n) : ℕ := load (fun stage => if stage.busy = true then 1 else 0) s.stage

/-- The questions of the page, in their order. -/
def State.questions (s : State n) : List Question := List.ofFn s.question

end State

variable (workers : ℕ) (items : List Item)

def step (s : State items.length) : Action items.length → Option (State items.length)
  | .submit =>
    match s.phase with
    | .submitting k =>
      some { s with phase := if k < items.length then .submitting (k + 1) else .collecting }
    | _ => none
  | .begin i =>
    if s.submitted i = true ∧ s.stage i = .queued ∧ s.busyWorkers < workers then
      some (s.goto i .running)
    else none
  | .query i =>
    match s.stage i with
    | .running =>
      match items[i].reply with
      | .answers res =>
        some ((s.write i ((s.question i).mark (items[i].handled u tiku res).1)).goto i
          (.decided (items[i].handled u tiku res).2))
      | .raises => some (s.goto i .failed)
    | _ => none
  | .count i =>
    match s.stage i with
    | .decided answer =>
      if isCover (s.question i) = true then
        some ({ s with found := s.found + 1 }.goto i (.counted answer))
      else none
    | _ => none
  | .store i =>
    match s.stage i with
    | .decided answer =>
      if isCover (s.question i) = true then none
      else some ((s.write i ((s.question i).store answer)).goto i .finished)
    | .counted answer => some ((s.write i ((s.question i).store answer)).goto i .finished)
    | _ => none
  | .collect i =>
    if s.phase = .collecting then
      match s.stage i with
      | .finished => some (s.goto i .collected)
      | .failed =>
        some ((s.write i (((s.question i).mark .random).store (fallbackAnswer items[i]))).goto i
          .collected)
      | _ => none
    else none
  | .leave =>
    if s.phase = .collecting ∧ ∀ i, s.stage i = .collected then some { s with phase := .returned }
    else none

/-- The call is made. -/
def Start (s : State items.length) : Prop :=
  s.phase = .submitting 0 ∧ (∀ i, s.stage i = .queued) ∧ s.found = 0 ∧
    ∀ i, s.question i = items[i].question

def machine : Machine (State items.length) (Action items.length) :=
  ⟨Start items, step u tiku workers items⟩

/-- `(found_answers / total_questions) * 100`, without the rounding of the floats; it raises for an empty list. -/
def coverRate (found total : ℕ) : Option ℚ := if total = 0 then none else some (found / total * 100)

end Process
end UniversityHelper.Quiz
