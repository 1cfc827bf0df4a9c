import UniversityHelper.AnswerBankTrust

/-! `TikuFallback`: the banks of a chain are asked in their order, and a chain answers with what its
first accepting bank would answer alone, unless a blank text is accepted before. -/
namespace UniversityHelper.AnswerBank

/-- What `init_tiku` does at a bank of a chain. -/
inductive Start
  | ready | disables | raises
  deriving DecidableEq, Repr

/-- What `_query` does at a bank of a chain. -/
inductive Reply
  | answers (fetched : Option String)
  | raises

structure Link where
  provider : Provider
  start : Start
  reply : Reply

section Chain
variable (cache : Cache) (conf : Option Config) (question : Question)

def Link.tiku (link : Link) : Tiku := initTiku link.provider conf (link.start = .disables)

/-- What `_query` answers; an exception counts as no answer. -/
def Link.fetched (link : Link) : Option String :=
  match link.reply with
  | .answers fetched => fetched
  | .raises => none

/-- The answer of the bank when it is selected alone. -/
def alone (link : Link) : Option String :=
  if link.start = .raises then none
  else (query cache ⟨link.tiku conf, question, link.fetched⟩).1

def Link.active (link : Link) : Bool :=
  link.start ≠ .raises ∧ (link.tiku conf).disable = false

/-- The banks that `_init_tiku` leaves in the chain. -/
def activeLinks (links : List Link) : List Link := links.filter (Link.active conf)

/-- The body of the loop of `TikuFallback._query`, `none` where it goes on. -/
def offer (type : QuestionType) (link : Link) : Option String :=
  match link.reply with
  | .raises => none
  | .answers fetched =>
    match fetched.filter fun answer => answer ≠ "" with
    | none => none
    | some answer =>
      if link.provider.lenient = true then
        if type = .judgement then normalizeJudgementAnswer (link.tiku conf) (strip answer)
        else some (strip answer)
      else if checkAnswer (strip answer) type (link.tiku conf) = true then some (strip answer)
      else none

/-- `TikuFallback._query`. -/
def ask (type : QuestionType) (links : List Link) : Option String := links.findSome? (offer conf type)

/-- `TikuFallback.query`; a chain without banks is disabled. -/
def fallbackQuery (links : List Link) : Option String × Cache :=
  if (activeLinks conf links).isEmpty = true then (none, cache)
  else
    let title := trimTitle question.title
    match (cache.get title).filter fun answer => answer ≠ "" with
    | some answer => (some (strip answer), cache)
    | none =>
      match (ask conf question.type (activeLinks conf links)).filter fun answer => answer ≠ "" with
      | none => (none, cache)
      | some answer => (some (strip answer), cache.set title (strip answer))

/-- The answer of a bank selected alone, unless it is empty. -/
def accepted (link : Link) : Option String :=
  (alone cache conf question link).filter fun answer => answer ≠ ""

/-- The chain answers as the first bank that has an answer alone, whatever the banks after it. -/
structure FirstAccepted (links : List Link) : Prop where
  result : (fallbackQuery cache conf question links).1 = links.findSome? (accepted cache conf question)
  later : ∀ before link after rest, links = before ++ link :: after →
    accepted cache conf question link ≠ none →
    (fallbackQuery cache conf question (before ++ link :: rest)).1 =
      (fallbackQuery cache conf question links).1

/-- A blank text that passes as an answer. -/
def Link.Blank (type : QuestionType) (link : Link) : Prop :=
  ∃ answer, link.reply = .answers (some answer) ∧ answer ≠ "" ∧ strip answer = "" ∧
    if link.provider.lenient = true then type ≠ .judgement else ∃ text, type = .other text

/-- An AI bank's judgement in its own words is mapped to a first entry that is not stripped. -/
def Link.Padded (type : QuestionType) (link : Link) : Prop :=
  link.provider.lenient = true ∧ type = .judgement ∧
    ∃ answer, link.reply = .answers (some answer) ∧ answer ≠ "" ∧ ∃ entry,
      normalizeJudgementAnswer (link.tiku conf) (strip answer) = some entry ∧ strip entry ≠ entry

/-- The first bank with an offer has not merely a blank text where a later one has more, and its
judgement is not padded. -/
def Fair (type : QuestionType) : List Link → Prop
  | [] => True
  | link :: links =>
    if offer conf type link = none then Fair type links
    else (link.Blank type → ∀ other ∈ links, offer conf type other = none ∨ other.Blank type) ∧
      ¬ link.Padded conf type

end Chain

section Offers
variable {cache : Cache} {conf : Option Config} {question : Question} {type : QuestionType}
variable {link : Link} {links : List Link}

theorem judgementList_nonempty {default : List String} (h : "" ∉ default) (raw : Option String) :
    "" ∉ judgementList default raw := by
  cases raw with
  | none => exact h
  | some raw =>
    rw [judgementList]
    split_ifs
    · exact h
    · simp

/-- An active bank has both lists configured. -/
theorem tiku_lists (active : link.active conf = true) :
    "" ∉ (link.tiku conf).trueList ∧ "" ∉ (link.tiku conf).falseList := by
  cases conf with
  | none => simp [Link.active, Link.tiku, initTiku] at active
  | some conf =>
    exact ⟨judgementList_nonempty (by decide) _, judgementList_nonempty (by decide) _⟩

theorem active_enabled (active : link.active conf = true) : (link.tiku conf).disable = false := by
  simp only [Link.active, decide_eq_true_eq] at active
  exact active.2

theorem offer_raises (h : link.reply = .raises) : offer conf type link = none := by
  rw [offer, h]

theorem offer_answers {fetched : Option String} (h : link.reply = .answers fetched) :
    offer conf type link = (fetched.filter fun answer => answer ≠ "").bind fun answer =>
      if link.provider.lenient = true then
        if type = .judgement then normalizeJudgementAnswer (link.tiku conf) (strip answer)
        else some (strip answer)
      else if checkAnswer (strip answer) type (link.tiku conf) = true then some (strip answer)
      else none := by
  rw [offer, h]
  dsimp only
  cases fetched.filter fun answer => answer ≠ "" with
  | none => rfl
  | some answer => rfl

theorem alone_eq (uncached : (cache.get (trimTitle question.title)).filter (fun a => a ≠ "") = none) :
    alone cache conf question link =
      if link.active conf = true then offer conf question.type link else none := by
  by_cases hraises : link.start = .raises
  · simp [alone, Link.active, hraises]
  by_cases hdisable : (link.tiku conf).disable = true
  · simp [alone, Link.active, hraises, query, hdisable]
  have hactive : link.active conf = true := by simp [Link.active, hraises, hdisable]
  have hcached : cached cache ⟨link.tiku conf, question, link.fetched⟩ = none := uncached
  rw [alone, if_neg hraises, if_pos hactive, query, if_neg hdisable, hcached]
  cases hreply : link.reply with
  | raises =>
    have hanswer : Call.answer ⟨link.tiku conf, question, link.fetched⟩ = none := by
      simp [Call.answer, Link.fetched, hreply]
    rw [offer_raises hreply, hanswer]
  | answers fetched =>
    have hanswer : Call.answer ⟨link.tiku conf, question, link.fetched⟩ =
        fetched.filter fun answer => answer ≠ "" := by
      simp [Call.answer, Link.fetched, hreply]
    rw [offer_answers hreply, hanswer]
    cases fetched.filter fun answer => answer ≠ "" with
    | none => rfl
    | some answer =>
      have hprovider : (link.tiku conf).provider = link.provider := by
        cases conf <;> rfl
      simp only [Option.bind_some, hprovider]
      split_ifs
      · cases normalizeJudgementAnswer (link.tiku conf) (strip answer) <;> rfl
      · rfl
      · rfl
      · rfl

theorem checkAnswer_empty {tiku : Tiku} (htrue : "" ∉ tiku.trueList) (hfalse : "" ∉ tiku.falseList) :
    checkAnswer "" type tiku = true ↔ ∃ text, type = .other text := by
  have hcut : cut "" = none := by decide
  cases type with
  | single => simp [checkAnswer, checkSingle, hcut]
  | multiple => simp [checkAnswer, checkMultiple, hcut]
  | completion => simp [checkAnswer, checkCompletion]
  | judgement => simp [checkAnswer, checkJudgement, htrue, hfalse]
  | other text => simp [checkAnswer]

/-- What a judgement is mapped to is an entry of the lists. -/
theorem normalized_mem {tiku : Tiku} (enabled : tiku.disable = false) {answer entry : String}
    (h : normalizeJudgementAnswer tiku (strip answer) = some entry) :
    entry ∈ tiku.trueList ∨ entry ∈ tiku.falseList := by
  obtain ⟨htrueList, hfalseList⟩ := tiku.usable enabled
  rcases normalizeJudgementAnswer_cases h with ⟨rfl, hmem⟩ | ⟨-, -, ⟨-, -, rfl⟩ | ⟨-, -, rfl⟩⟩
  · exact hmem
  · exact .inl (headD_mem htrueList _)
  · exact .inr (headD_mem hfalseList _)

theorem filter_nonempty (answer : String) :
    ((some answer).filter fun answer => answer ≠ "") = if answer = "" then none else some answer := by
  simp [Option.filter, ite_not]

theorem offer_eq_some {answer : String} : offer conf type link = some answer ↔
    ∃ raw, link.reply = .answers (some raw) ∧ raw ≠ "" ∧
      if link.provider.lenient = true ∧ type = .judgement then
        normalizeJudgementAnswer (link.tiku conf) (strip raw) = some answer
      else (link.provider.lenient = true ∨ checkAnswer (strip raw) type (link.tiku conf) = true) ∧
        strip raw = answer := by
  cases hreply : link.reply with
  | raises => simp [offer_raises hreply]
  | answers fetched =>
    rw [offer_answers hreply]
    cases fetched with
    | none => simp
    | some raw =>
      rw [filter_nonempty]
      by_cases hraw : raw = ""
      · simp [hraw]
      · by_cases hlenient : link.provider.lenient = true
        · by_cases htype : type = .judgement
          · simp [hraw, hlenient, htype]
          · simp [hraw, hlenient, htype]
        · simp [hraw, hlenient]

/-- The empty offers are those of a blank text. -/
theorem offer_empty (active : link.active conf = true) :
    offer conf type link = some "" ↔ link.Blank type := by
  obtain ⟨htrue, hfalse⟩ := tiku_lists active
  rw [offer_eq_some, Link.Blank]
  refine exists_congr fun raw => and_congr_right fun _ => and_congr_right fun _ => ?_
  by_cases hlenient : link.provider.lenient = true
  · by_cases htype : type = .judgement
    · simp only [hlenient, htype, and_self, if_true, ne_eq, not_true_eq_false, and_false, iff_false]
      intro h
      exact (normalized_mem (active_enabled active) h).elim htrue hfalse
    · simp [hlenient, htype]
  · simp only [hlenient, Bool.false_eq_true, false_and, if_false, false_or]
    constructor
    · rintro ⟨hcheck, hblank⟩
      rw [hblank, checkAnswer_empty htrue hfalse] at hcheck
      exact ⟨hblank, hcheck⟩
    · rintro ⟨hblank, htype⟩
      rw [hblank, checkAnswer_empty htrue hfalse]
      exact ⟨htype, rfl⟩

/-- The offers that are not stripped are those of a padded entry. -/
theorem offer_padded {answer : String} (h : offer conf type link = some answer) :
    strip answer ≠ answer ↔ link.Padded conf type := by
  obtain ⟨raw, hreply, hraw, hoffer⟩ := offer_eq_some.mp h
  have hsame : ∀ other, link.reply = .answers (some other) → other = raw := by
    intro other hother
    rw [hreply] at hother
    cases hother
    rfl
  split_ifs at hoffer with hjudgement
  · obtain ⟨hlenient, htype⟩ := hjudgement
    constructor
    · exact fun hpadded => ⟨hlenient, htype, raw, hreply, hraw, answer, hoffer, hpadded⟩
    · rintro ⟨-, -, other, hother, -, entry, hentry, hpadded⟩
      rw [hsame other hother, hoffer] at hentry
      cases hentry
      exact hpadded
  · refine iff_of_false (fun hpadded => hpadded ?_) fun hpadded => hjudgement ⟨hpadded.1, hpadded.2.1⟩
    rw [← hoffer.2, strip_strip]

theorem accepted_eq (uncached : (cache.get (trimTitle question.title)).filter (fun a => a ≠ "") = none) :
    links.findSome? (accepted cache conf question) =
      (activeLinks conf links).findSome? fun link =>
        (offer conf question.type link).filter fun answer => answer ≠ "" := by
  induction links with
  | nil => rfl
  | cons link links ih =>
    have haccepted : accepted cache conf question link = if link.active conf = true then
        (offer conf question.type link).filter fun answer => answer ≠ "" else none := by
      rw [accepted, alone_eq uncached]
      split_ifs <;> rfl
    rw [activeLinks, List.filter_cons, List.findSome?_cons, haccepted, ih]
    split_ifs with hactive
    · rw [List.findSome?_cons]
      rfl
    · rfl

theorem fallbackQuery_eq
    (uncached : (cache.get (trimTitle question.title)).filter (fun a => a ≠ "") = none) :
    (fallbackQuery cache conf question links).1 =
      ((ask conf question.type (activeLinks conf links)).filter fun answer => answer ≠ "").map
        strip := by
  rw [fallbackQuery]
  by_cases hempty : (activeLinks conf links).isEmpty = true
  · rw [if_pos hempty, List.isEmpty_iff.mp hempty]
    rfl
  · rw [if_neg hempty]
    dsimp only
    rw [uncached]
    cases (ask conf question.type (activeLinks conf links)).filter fun answer => answer ≠ "" with
    | none => rfl
    | some answer => rfl

/-- A chain answers as its first accepting bank exactly when it is fair. -/
theorem ask_fair (active : ∀ link ∈ links, link.active conf = true) :
    (((ask conf type links).filter fun answer => answer ≠ "").map strip =
      links.findSome? fun link => (offer conf type link).filter fun answer => answer ≠ "") ↔
        Fair conf type links := by
  induction links with
  | nil => simp [ask, Fair]
  | cons link links ih =>
    have hactive := active link List.mem_cons_self
    have hrest := fun other hother => active other (List.mem_cons_of_mem link hother)
    rw [ask, List.findSome?_cons, List.findSome?_cons, Fair]
    cases hoffer : offer conf type link with
    | none =>
      rw [if_pos rfl]
      exact ih hrest
    | some answer =>
      rw [if_neg (Option.some_ne_none answer), filter_nonempty]
      by_cases hempty : answer = ""
      · subst hempty
        have hblank := (offer_empty hactive).mp hoffer
        have hstripped : ¬ link.Padded conf type := by
          rw [← offer_padded hoffer]
          decide
        rw [if_pos rfl]
        simp only [hblank, true_implies, hstripped, not_false_eq_true, and_true, Option.map_none]
        rw [eq_comm, List.findSome?_eq_none_iff]
        refine forall₂_congr fun other hother => ?_
        rw [← offer_empty (hrest other hother)]
        cases offer conf type other with
        | none => simp
        | some text => by_cases htext : text = "" <;> simp [htext]
      · have hblank : ¬ link.Blank type := by
          rw [← offer_empty hactive, hoffer, Option.some_inj]
          exact hempty
        rw [if_neg hempty, ← offer_padded hoffer]
        simp [hblank]

/-- The banks after one with an offer are not asked. -/
theorem ask_append {before after : List Link} (h : offer conf type link ≠ none) :
    ask conf type (before ++ link :: after) = (ask conf type before).or (offer conf type link) := by
  obtain ⟨answer, hanswer⟩ := Option.ne_none_iff_exists'.mp h
  rw [ask, List.findSome?_append, List.findSome?_cons, hanswer]
  rfl

end Offers

theorem fallback_first_accepted (cache : Cache) (conf : Option Config) (question : Question)
    (links : List Link)
    (uncached : (cache.get (trimTitle question.title)).filter (fun a => a ≠ "") = none) :
    FirstAccepted cache conf question links ↔
      Fair conf question.type (activeLinks conf links) := by
  have hactive : ∀ link ∈ activeLinks conf links, link.active conf = true :=
    fun link hlink => (List.mem_filter.mp hlink).2
  rw [← ask_fair hactive, ← fallbackQuery_eq uncached, ← accepted_eq uncached]
  refine ⟨FirstAccepted.result, fun h => ⟨h, ?_⟩⟩
  rintro before link after rest rfl haccepted
  have hoffer : link.active conf = true ∧ offer conf question.type link ≠ none := by
    rw [accepted, alone_eq uncached] at haccepted
    split_ifs at haccepted with hlink
    · refine ⟨hlink, fun hnone => haccepted ?_⟩
      rw [hnone, Option.filter_none]
    · exact absurd rfl haccepted
  have hchain : ∀ others, activeLinks conf (before ++ link :: others) =
      activeLinks conf before ++ link :: activeLinks conf others := by
    intro others
    rw [activeLinks, List.filter_append, List.filter_cons, if_pos hoffer.1]
    rfl
  rw [fallbackQuery_eq uncached, fallbackQuery_eq uncached, hchain, hchain, ask_append hoffer.2,
    ask_append hoffer.2]

/-- The second bank of this chain knows the answer. -/
def likeThenYanxi : List Link :=
  [⟨.tikuLike, .ready, .answers (some " ")⟩, ⟨.tikuYanxi, .ready, .answers (some "x")⟩]

def aiThenYanxi : List Link :=
  [⟨.ai, .ready, .answers (some "这道题表述是对的")⟩, ⟨.tikuYanxi, .ready, .raises⟩]

theorem fallback_first_accepted_ai :
    FirstAccepted .empty (some ⟨none, none⟩) ⟨"地球是圆的", .judgement⟩ aiThenYanxi ↔
      Fair (some ⟨none, none⟩) .judgement (activeLinks (some ⟨none, none⟩) aiThenYanxi) :=
  fallback_first_accepted .empty (some ⟨none, none⟩) ⟨"地球是圆的", .judgement⟩ aiThenYanxi rfl

theorem blank_ends_chain :
    ¬ FirstAccepted .empty (some ⟨none, none⟩) ⟨"世界上有", .other "unknown"⟩ likeThenYanxi ∧
      ¬ FirstAccepted .empty (some ⟨some "对 ,是", none⟩) ⟨"地球是圆的", .judgement⟩ aiThenYanxi := by
  constructor
  · intro h
    have hresult := h.result
    revert hresult
    decide
  · intro h
    have hresult := h.result
    revert hresult
    decide

end UniversityHelper.AnswerBank
