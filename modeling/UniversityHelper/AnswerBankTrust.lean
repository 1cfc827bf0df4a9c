import UniversityHelper.AnswerBank

/-! When the answers of `query` can be trusted: an answer of the bank itself has passed its checks,
an answer from the shared cache only those of whichever bank put it there. -/
namespace UniversityHelper.AnswerBank

/-- What a caller relies on: the check of the answer's type, and for a judgement that
`judgement_select` need not guess. -/
def Trustworthy (tiku : Tiku) (type : QuestionType) (answer : String) : Prop :=
  (tiku.provider.lenient = false → checkAnswer answer type tiku = true) ∧
    (type = .judgement → (answer ∈ tiku.trueList ∨ answer ∈ tiku.falseList) ∧
      judgementSelect tiku answer ≠ none)

/-- The check an answer of the bank itself has to pass. -/
def admits (tiku : Tiku) (type : QuestionType) (answer : String) : Bool :=
  if tiku.provider.lenient = true then
    type ≠ .judgement ∨ answer ∈ tiku.trueList ∨ answer ∈ tiku.falseList
  else checkAnswer answer type tiku

/-- `judgement_select` strips what it looks up. -/
def Selectable (tiku : Tiku) (entry : String) : Prop :=
  strip entry ∈ tiku.trueList ∨ strip entry ∈ tiku.falseList

/-- An answer in other words than the configured ones is mapped, by its keywords, to a first entry
that does not survive being stripped. -/
def MappedToPadded (tiku : Tiku) (text : String) : Prop :=
  text ∉ tiku.trueList ∧ text ∉ tiku.falseList ∧
    ((hits trueMarkers text = true ∧ hits falseMarkers text = false ∧
        ¬ Selectable tiku (tiku.trueList.headD "正确")) ∨
      (hits falseMarkers text = true ∧ hits trueMarkers text = false ∧
        ¬ Selectable tiku (tiku.falseList.headD "错误")))

/-- The condition: what the cache holds for the title passes the asking bank's own check, and what
an AI bank says in its own words is not mapped to a padded entry. -/
def Fits (cache : Cache) (c : Call) : Prop :=
  match cached cache c with
  | some answer => admits c.tiku c.question.type (strip answer) = true
  | none => c.tiku.provider.lenient = true → c.question.type = .judgement →
      ∀ answer, c.fetched = some answer → ¬ MappedToPadded c.tiku (strip answer)

variable {tiku : Tiku} {type : QuestionType} {answer : String} {cache : Cache} {c : Call}

theorem judgementSelect_ne_none (enabled : tiku.disable = false) :
    judgementSelect tiku answer ≠ none ↔ Selectable tiku answer := by
  simp only [judgementSelect, enabled, Bool.false_eq_true, if_false, Selectable]
  split_ifs with htrue hfalse
  · simp [htrue]
  · simp [hfalse]
  · simp [htrue, hfalse]

theorem checkAnswer_judgement :
    checkAnswer answer .judgement tiku = true ↔ answer ∈ tiku.trueList ∨ answer ∈ tiku.falseList := by
  simp only [checkAnswer, checkJudgement]
  split_ifs with htrue hfalse
  · simp [htrue]
  · simp [hfalse]
  · simp [htrue, hfalse]

theorem trustworthy_strip (enabled : tiku.disable = false) :
    Trustworthy tiku type (strip answer) ↔ admits tiku type (strip answer) = true := by
  unfold Trustworthy admits
  rw [judgementSelect_ne_none enabled, Selectable, strip_strip]
  by_cases hlenient : tiku.provider.lenient = true
  · by_cases htype : type = .judgement
    · simp [hlenient, htype]
    · simp [hlenient, htype]
  · by_cases htype : type = .judgement
    · subst htype
      simp [hlenient, checkAnswer_judgement]
    · simp [hlenient, htype]

theorem normalizeJudgementAnswer_cases {entry : String}
    (h : normalizeJudgementAnswer tiku (strip answer) = some entry) :
    (entry = strip answer ∧ (strip answer ∈ tiku.trueList ∨ strip answer ∈ tiku.falseList)) ∨
      (strip answer ∉ tiku.trueList ∧ strip answer ∉ tiku.falseList ∧
        ((hits trueMarkers (strip answer) = true ∧ hits falseMarkers (strip answer) = false ∧
            entry = tiku.trueList.headD "正确") ∨
          (hits falseMarkers (strip answer) = true ∧ hits trueMarkers (strip answer) = false ∧
            entry = tiku.falseList.headD "错误"))) := by
  simp only [normalizeJudgementAnswer, strip_strip] at h
  split_ifs at h with hempty htrue hfalse hsaysTrue hsaysFalse
  · cases h
    exact Or.inl ⟨rfl, Or.inl htrue⟩
  · cases h
    exact Or.inl ⟨rfl, Or.inr hfalse⟩
  · cases h
    simp only [Bool.and_eq_true, Bool.not_eq_true'] at hsaysTrue
    exact Or.inr ⟨htrue, hfalse, Or.inl ⟨hsaysTrue.1, hsaysTrue.2, rfl⟩⟩
  · cases h
    simp only [Bool.and_eq_true, Bool.not_eq_true'] at hsaysFalse
    exact Or.inr ⟨htrue, hfalse, Or.inr ⟨hsaysFalse.1, hsaysFalse.2, rfl⟩⟩

theorem headD_mem {entries : List String} (h : entries ≠ []) (default : String) :
    entries.headD default ∈ entries := by
  cases entries with
  | nil => exact absurd rfl h
  | cons entry entries => simp

/-- What an AI bank makes of a judgement is an entry of its lists; `judgement_select` finds it
again unless it was mapped to a padded one. -/
theorem normalized_trustworthy_iff (enabled : tiku.disable = false)
    (lenient : tiku.provider.lenient = true) {entry : String}
    (h : normalizeJudgementAnswer tiku (strip answer) = some entry) :
    Trustworthy tiku .judgement entry ↔ ¬ MappedToPadded tiku (strip answer) := by
  obtain ⟨htrueList, hfalseList⟩ := tiku.usable enabled
  simp only [Trustworthy, lenient, Bool.true_eq_false, false_implies, true_and, true_implies,
    judgementSelect_ne_none enabled]
  rcases normalizeJudgementAnswer_cases h with ⟨rfl, hmem⟩ | ⟨htrue, hfalse, hsays⟩
  · refine iff_of_true ⟨hmem, by rw [Selectable, strip_strip]; exact hmem⟩ fun hmapped => ?_
    exact hmem.elim hmapped.1 hmapped.2.1
  · rcases hsays with ⟨hyes, hno, rfl⟩ | ⟨hno, hyes, rfl⟩
    · have hmem := headD_mem htrueList "正确"
      simp only [MappedToPadded, htrue, hfalse, hyes, hno, hmem, true_or, true_and,
        not_false_eq_true, Bool.true_eq_false, Bool.false_eq_true, false_and, or_false, not_not]
    · have hmem := headD_mem hfalseList "错误"
      simp only [MappedToPadded, htrue, hfalse, hyes, hno, hmem, or_true, true_and,
        not_false_eq_true, Bool.true_eq_false, Bool.false_eq_true, false_and, false_or, not_not]

/-- Where an answer of `query` comes from. -/
inductive Source (cache : Cache) (c : Call) (r : String) : Prop
  | cache (held : String) (hit : cached cache c = some held) (same : r = strip held)
      (kept : (query cache c).2 = cache)
  | bank (answer : String) (miss : cached cache c = none) (fetched : c.fetched = some answer)
      (strict : c.tiku.provider.lenient = false)
      (checked : checkAnswer (strip answer) c.question.type c.tiku = true) (same : r = strip answer)
      (added : (query cache c).2 = cache.set (trimTitle c.question.title) r)
  | ai (answer : String) (miss : cached cache c = none) (fetched : c.fetched = some answer)
      (lenient : c.tiku.provider.lenient = true) (free : c.question.type ≠ .judgement)
      (same : r = strip answer)
      (added : (query cache c).2 = cache.set (trimTitle c.question.title) r)
  | aiJudgement (answer : String) (miss : cached cache c = none) (fetched : c.fetched = some answer)
      (lenient : c.tiku.provider.lenient = true) (judgement : c.question.type = .judgement)
      (normalized : normalizeJudgementAnswer c.tiku (strip answer) = some r)
      (added : (query cache c).2 = cache.set (trimTitle c.question.title) r)

theorem query_source {r : String} (answered : (query cache c).1 = some r) :
    c.tiku.disable = false ∧ Source cache c r := by
  by_cases hdisable : c.tiku.disable = true
  · simp [query, hdisable] at answered
  refine ⟨by simpa using hdisable, ?_⟩
  cases hcached : cached cache c with
  | some held =>
    have hquery : query cache c = (some (strip held), cache) := by simp [query, hdisable, hcached]
    rw [hquery] at answered
    exact .cache held hcached (Option.some_inj.mp answered).symm (by rw [hquery])
  | none =>
    cases hfetched : c.answer with
    | none => simp [query, hdisable, hcached, hfetched] at answered
    | some answer =>
      obtain ⟨hfetch, -⟩ := Option.filter_eq_some_iff.mp hfetched
      by_cases hlenient : c.tiku.provider.lenient = true
      · by_cases htype : c.question.type = .judgement
        · cases hentry : normalizeJudgementAnswer c.tiku (strip answer) with
          | none => simp [query, hdisable, hcached, hfetched, hlenient, htype, hentry] at answered
          | some entry =>
            have hquery : query cache c =
                (some entry, cache.set (trimTitle c.question.title) entry) := by
              simp [query, hdisable, hcached, hfetched, hlenient, htype, hentry]
            rw [hquery, Option.some_inj] at answered
            exact .aiJudgement answer hcached hfetch hlenient htype (answered ▸ hentry)
              (by rw [hquery, answered])
        · have hquery : query cache c =
              (some (strip answer), cache.set (trimTitle c.question.title) (strip answer)) := by
            simp [query, hdisable, hcached, hfetched, hlenient, htype]
          rw [hquery, Option.some_inj] at answered
          exact .ai answer hcached hfetch hlenient htype answered.symm (by rw [hquery, answered])
      · by_cases hcheck : checkAnswer (strip answer) c.question.type c.tiku = true
        · have hquery : query cache c =
              (some (strip answer), cache.set (trimTitle c.question.title) (strip answer)) := by
            simp [query, hdisable, hcached, hfetched, hlenient, hcheck]
          rw [hquery, Option.some_inj] at answered
          exact .bank answer hcached hfetch (by simpa using hlenient) hcheck answered.symm
            (by rw [hquery, answered])
        · simp [query, hdisable, hcached, hfetched, hlenient, hcheck] at answered

theorem query_silent (silent : (query cache c).1 = none) : (query cache c).2 = cache := by
  by_cases hdisable : c.tiku.disable = true
  · simp [query, hdisable]
  cases hcached : cached cache c with
  | some held => simp [query, hdisable, hcached]
  | none =>
    cases hfetched : c.answer with
    | none => simp [query, hdisable, hcached, hfetched]
    | some answer =>
      by_cases hlenient : c.tiku.provider.lenient = true
      · by_cases htype : c.question.type = .judgement
        · cases hentry : normalizeJudgementAnswer c.tiku (strip answer) with
          | none => simp [query, hdisable, hcached, hfetched, hlenient, htype, hentry]
          | some entry =>
            simp [query, hdisable, hcached, hfetched, hlenient, htype, hentry] at silent
        · simp [query, hdisable, hcached, hfetched, hlenient, htype] at silent
      · by_cases hcheck : checkAnswer (strip answer) c.question.type c.tiku = true
        · simp [query, hdisable, hcached, hfetched, hlenient, hcheck] at silent
        · simp [query, hdisable, hcached, hfetched, hlenient, hcheck]

theorem trustworthy_iff_fits {r : String} (answered : (query cache c).1 = some r) :
    Trustworthy c.tiku c.question.type r ↔ Fits cache c := by
  obtain ⟨enabled, source⟩ := query_source answered
  unfold Fits
  cases source with
  | cache held hit same _ =>
    rw [hit, same]
    exact trustworthy_strip enabled
  | bank answer miss _ strict checked same _ =>
    rw [miss, same]
    refine iff_of_true ((trustworthy_strip enabled).mpr ?_) fun lenient => ?_
    · rw [admits, if_neg (by simp [strict])]
      exact checked
    · rw [strict] at lenient
      cases lenient
  | ai answer miss _ lenient free _ _ =>
    rw [miss]
    refine iff_of_true ⟨fun strict => ?_, fun h => absurd h free⟩ fun _ h => absurd h free
    rw [lenient] at strict
    cases strict
  | aiJudgement answer miss fetched lenient judgement normalized _ =>
    rw [miss, judgement, normalized_trustworthy_iff enabled lenient normalized]
    simp [lenient, fetched]

/-- No entry of the lists has spaces around it. -/
def Tiku.Unpadded (tiku : Tiku) : Prop :=
  ∀ entry ∈ tiku.trueList ++ tiku.falseList, strip entry = entry

/-- Every answer in the cache was admitted by the bank of some earlier call about its title. -/
def Admitted (calls : List Call) (cache : Cache) : Prop :=
  ∀ title answer, cache.get title = some answer → ∃ c ∈ calls,
    trimTitle c.question.title = title ∧ admits c.tiku c.question.type (strip answer) = true

theorem Admitted.after_query {calls : List Call} (h : Admitted calls cache)
    (unpadded : c.tiku.Unpadded) :
    Admitted (calls ++ [c]) (query cache c).2 := by
  have hkept : Admitted (calls ++ [c]) cache := by
    intro title answer hget
    obtain ⟨d, hd, hrest⟩ := h title answer hget
    exact ⟨d, List.mem_append_left _ hd, hrest⟩
  have hadded : ∀ r, (query cache c).2 = cache.set (trimTitle c.question.title) r →
      admits c.tiku c.question.type (strip r) = true → Admitted (calls ++ [c]) (query cache c).2 := by
    intro r hset hadmits title answer hget
    rw [hset, OrderedDict.get_set] at hget
    split_ifs at hget with htitle
    · cases hget
      exact ⟨c, by simp, htitle.symm, hadmits⟩
    · exact hkept title answer hget
  cases hanswer : (query cache c).1 with
  | none =>
    have hsame : (query cache c).2 = cache := query_silent hanswer
    rw [hsame]
    exact hkept
  | some r =>
    obtain ⟨enabled, source⟩ := query_source hanswer
    cases source with
    | cache held _ _ kept =>
      rw [kept]
      exact hkept
    | bank answer _ _ strict checked same added =>
      refine hadded r added ?_
      rw [same, strip_strip, admits, if_neg (by simp [strict])]
      exact checked
    | ai answer _ _ lenient free same added =>
      exact hadded r added (by simp [admits, lenient, free])
    | aiJudgement answer _ _ lenient judgement normalized added =>
      refine hadded r added ?_
      obtain ⟨htrueList, hfalseList⟩ := c.tiku.usable enabled
      have hmem : r ∈ c.tiku.trueList ∨ r ∈ c.tiku.falseList := by
        rcases normalizeJudgementAnswer_cases normalized with ⟨rfl, hmem⟩ | ⟨-, -, hsays⟩
        · exact hmem
        · rcases hsays with ⟨-, -, rfl⟩ | ⟨-, -, rfl⟩
          · exact Or.inl (headD_mem htrueList _)
          · exact Or.inr (headD_mem hfalseList _)
      rw [unpadded r (List.mem_append.mpr hmem)]
      simp [admits, lenient, hmem]

theorem not_mappedToPadded (enabled : tiku.disable = false) (unpadded : tiku.Unpadded)
    (text : String) : ¬ MappedToPadded tiku text := by
  obtain ⟨htrueList, hfalseList⟩ := tiku.usable enabled
  have htrue := headD_mem htrueList "正确"
  have hfalse := headD_mem hfalseList "错误"
  rintro ⟨-, -, ⟨-, -, hpadded⟩ | ⟨-, -, hpadded⟩⟩
  · refine hpadded (Or.inl ?_)
    rw [unpadded _ (List.mem_append_left _ htrue)]
    exact htrue
  · refine hpadded (Or.inr ?_)
    rw [unpadded _ (List.mem_append_right _ hfalse)]
    exact hfalse

theorem admitted_cacheAfter (calls : List Call) (unpadded : ∀ c ∈ calls, c.tiku.Unpadded) :
    Admitted calls (cacheAfter OrderedDict.empty calls) := by
  induction calls using List.reverseRecOn with
  | nil =>
    intro title answer hget
    cases hget
  | append_singleton calls c ih =>
    have hbefore := ih fun d hd => unpadded d (List.mem_append_left _ hd)
    have hafter := hbefore.after_query (unpadded c (by simp))
    simpa [cacheAfter] using hafter

/-- From an empty cache on, calls that agree on bank and type whenever they agree on the title are
always answered with what fits. -/
theorem uniform_calls_trustworthy (calls : List Call) (c : Call) (r : String)
    (unpadded : ∀ d ∈ calls ++ [c], d.tiku.Unpadded)
    (uniform : ∀ d ∈ calls, trimTitle d.question.title = trimTitle c.question.title →
      d.tiku = c.tiku ∧ d.question.type = c.question.type)
    (answered : (query (cacheAfter OrderedDict.empty calls) c).1 = some r) :
    Trustworthy c.tiku c.question.type r := by
  rw [trustworthy_iff_fits answered]
  have hadmitted := admitted_cacheAfter calls fun d hd => unpadded d (List.mem_append_left _ hd)
  obtain ⟨enabled, -⟩ := query_source answered
  unfold Fits
  split
  · rename_i held hit
    obtain ⟨hget, -⟩ := Option.filter_eq_some_iff.mp hit
    obtain ⟨d, hd, htitle, hadmits⟩ := hadmitted _ _ hget
    obtain ⟨htiku, htype⟩ := uniform d hd htitle
    rw [← htiku, ← htype]
    exact hadmits
  · exact fun _ _ answer _ => not_mappedToPadded enabled (unpadded c (by simp)) _

/-- In every sequence of calls over one cache, the answer of a call is trustworthy exactly when the cache and the
bank fit it; so it always is where the calls about its title agree on the bank and the type. -/
theorem query_trustworthy_iff (calls : List Call) (c : Call) (r : String) :
    (∀ initial, (query (cacheAfter initial calls) c).1 = some r →
      (Trustworthy c.tiku c.question.type r ↔ Fits (cacheAfter initial calls) c)) ∧
    ((∀ d ∈ calls ++ [c], d.tiku.Unpadded) →
      (∀ d ∈ calls, trimTitle d.question.title = trimTitle c.question.title →
        d.tiku = c.tiku ∧ d.question.type = c.question.type) →
      (query (cacheAfter OrderedDict.empty calls) c).1 = some r → Trustworthy c.tiku c.question.type r) :=
  ⟨fun _ answered => trustworthy_iff_fits answered, uniform_calls_trustworthy calls c r⟩

/-- Two users with the same bank, who call right and wrong by different names. -/
def plainUser : Tiku := initTiku .tikuYanxi (some ⟨none, none⟩) false
def shortUser : Tiku := initTiku .tikuYanxi (some ⟨some "Y", some "N"⟩) false
def roundEarth : Question := ⟨"地球是圆的", .judgement⟩

theorem foreign_answer :
    (query (cacheAfter OrderedDict.empty [⟨plainUser, roundEarth, some "正确"⟩])
        ⟨shortUser, roundEarth, some "Y"⟩).1 = some "正确" ∧
      checkAnswer "正确" .judgement shortUser = false ∧ judgementSelect shortUser "正确" = none := by
  decide

theorem plainUser_unpadded : plainUser.Unpadded := by
  unfold Tiku.Unpadded
  decide

/-- The first user, asked again, is answered from the cache with what fits. -/
theorem own_answer :
    (Trustworthy plainUser .judgement "正确" ↔
      Fits (cacheAfter OrderedDict.empty [⟨plainUser, roundEarth, some "正确"⟩]) ⟨plainUser, roundEarth, none⟩) ∧
    Trustworthy plainUser .judgement "正确" := by
  obtain ⟨hiff, huniform⟩ := query_trustworthy_iff [⟨plainUser, roundEarth, some "正确"⟩]
    ⟨plainUser, roundEarth, none⟩ "正确"
  have hanswered : (query (cacheAfter OrderedDict.empty [⟨plainUser, roundEarth, some "正确"⟩])
      ⟨plainUser, roundEarth, none⟩).1 = some "正确" := by decide
  refine ⟨hiff OrderedDict.empty hanswered, huniform ?_ ?_ hanswered⟩
  · simp [plainUser_unpadded]
  · simp

end UniversityHelper.AnswerBank
