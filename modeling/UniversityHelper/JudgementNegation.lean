import UniversityHelper.AnswerBank

/-! Negated judgements: the keywords of `_normalize_judgement_answer` see an English negation, and
take a Chinese one for its contrary. -/
namespace UniversityHelper.AnswerBank

def negations : List String := ["不", "不是", "in", "in-", "not "]

/-- Every occurrence of a true marker comes right after a negation. -/
def Negated (text : String) : Prop :=
  ∀ marker ∈ trueMarkers, ∀ before after, (lower text).toList = before ++ marker.toList ++ after →
    ∃ negation ∈ negations, negation.toList <:+ before

/-- The answer is not read as true. -/
def NotTrue (tiku : Tiku) (answer : String) : Prop :=
  ∀ entry, normalizeJudgementAnswer tiku answer = some entry → entry ∉ tiku.trueList

/-- A negation that the false markers contain. -/
def SaysNot (text : String) : Prop :=
  contains (lower text) "incorrect" = true ∨
    ∃ marker ∈ trueMarkers, contains (lower text) ("not " ++ marker) = true

variable {text part : String}

theorem contains_strip (hpart : ∀ c ∈ part.toList, isSpace c = false) (h : contains text part = true) :
    contains (strip text) part = true := by
  simp only [contains, decide_eq_true_eq] at h ⊢
  simp only [strip, String.toList_ofList]
  exact infix_stripChars h hpart

theorem negation_not_space {negation : String} (h : negation ∈ negations) :
    ∃ c ∈ negation.toList, isSpace c = false := by
  fin_cases h
  · exact ⟨'不', by decide, by decide⟩
  · exact ⟨'不', by decide, by decide⟩
  · exact ⟨'i', by decide, by decide⟩
  · exact ⟨'i', by decide, by decide⟩
  · exact ⟨'n', by decide, by decide⟩

/-- A negated answer does not begin with a true marker. -/
theorem strip_ne_of_negated (negated : Negated text) {entry : String}
    (hentry : lower entry ∈ trueMarkers) : strip text ≠ entry := by
  rintro rfl
  obtain ⟨before, after, hsplit, hspaces⟩ := stripChars_split (lower text).toList
  have hmarker : (lower (strip text)).toList = stripChars (lower text).toList := by
    rw [lower_strip, strip, String.toList_ofList]
  obtain ⟨negation, hnegation, hsuffix⟩ := negated _ hentry before after (by rw [hmarker, ← hsplit])
  obtain ⟨c, hc, hspace⟩ := negation_not_space hnegation
  rw [hspaces c (hsuffix.subset hc)] at hspace
  cases hspace

theorem strip_mem_defaultTrue (negated : Negated text) (h : strip text ∈ defaultTrue) :
    strip text = "T" := by
  have hentries : ∀ entry ∈ defaultTrue, entry ≠ "T" → lower entry ∈ trueMarkers := by decide
  by_contra hne
  exact strip_ne_of_negated negated (hentries _ h hne) rfl

theorem saysNot_hits (h : SaysNot text) : hits falseMarkers (strip text) = true := by
  have hits_of : ∀ marker ∈ falseMarkers, (∀ c ∈ marker.toList, isSpace c = false) →
      contains (lower text) marker = true → hits falseMarkers (strip text) = true := by
    intro marker hmarker hspaces hcontains
    refine List.any_eq_true.mpr ⟨marker, hmarker, Bool.or_eq_true_iff.mpr (.inr ?_)⟩
    rw [lower_strip]
    exact contains_strip hspaces hcontains
  rcases h with hincorrect | ⟨marker, -, hnot⟩
  · exact hits_of "incorrect" (by decide) (by simp [isSpace]) hincorrect
  · refine hits_of "no" (by decide) (by simp [isSpace]) ?_
    simp only [contains, decide_eq_true_eq] at hnot ⊢
    refine List.IsInfix.trans ⟨[], 't' :: ' ' :: marker.toList, ?_⟩ hnot
    rw [String.toList_append]
    rfl

theorem negated_judgement (tiku : Tiku) (htrue : tiku.trueList = defaultTrue)
    (hfalse : tiku.falseList = defaultFalse) (answer : String) (negated : Negated answer) :
    (NotTrue tiku answer ↔ strip answer ≠ "T" ∧
        (hits trueMarkers (strip answer) = true → hits falseMarkers (strip answer) = true)) ∧
      (SaysNot answer → NotTrue tiku answer) := by
  have hiff : NotTrue tiku answer ↔ strip answer ≠ "T" ∧
      (hits trueMarkers (strip answer) = true → hits falseMarkers (strip answer) = true) := by
    have hdisjoint : ∀ entry ∈ defaultFalse, entry ∉ defaultTrue ∧ hits trueMarkers entry = false := by
      decide
    have hT : "T" ∈ defaultTrue := by decide
    rw [NotTrue, htrue, normalizeJudgementAnswer, htrue, hfalse]
    dsimp only
    split_ifs with hempty hyes hno hsays hdenies
    · subst hempty
      exact iff_of_true (by simp) ⟨by decide, by decide⟩
    · refine iff_of_false (fun h => h _ rfl hyes) fun h => h.1 (strip_mem_defaultTrue negated hyes)
    · obtain ⟨hnot, hquiet⟩ := hdisjoint _ hno
      refine iff_of_true ?_ ⟨fun h => hnot (h ▸ hT), fun h => ?_⟩
      · rintro _ ⟨⟩
        exact hnot
      · rw [hquiet] at h
        cases h
    · obtain ⟨hhits, hquiet⟩ := (Bool.and_eq_true_iff.mp hsays)
      refine iff_of_false (fun h => h _ rfl (by decide)) fun h => ?_
      rw [h.2 hhits] at hquiet
      cases hquiet
    · obtain ⟨hhits, -⟩ := Bool.and_eq_true_iff.mp hdenies
      refine iff_of_true ?_ ⟨fun h => hyes (h ▸ hT), fun _ => hhits⟩
      rintro _ ⟨⟩
      decide
    · refine iff_of_true (by simp) ⟨fun h => hyes (h ▸ hT), fun h => ?_⟩
      simpa [h] using hsays
  refine ⟨hiff, fun hsays => hiff.mpr ⟨fun h => ?_, fun _ => saysNot_hits hsays⟩⟩
  have hquiet : hits falseMarkers "T" = false := by decide
  rw [← h, saysNot_hits hsays] at hquiet
  cases hquiet

/-- A bank with the default lists. -/
def defaultBank : Tiku := initTiku .ai (some ⟨none, none⟩) false

theorem negated_not_right : Negated "不对" := by
  intro marker hmarker before after h
  have htext : (lower "不对").toList = ['不', '对'] := by decide
  rw [htext] at h
  rcases before with _ | ⟨c, _ | ⟨d, before⟩⟩
  · exfalso
    have hprefix : marker.toList <+: ['不', '对'] := ⟨after, h.symm⟩
    have hnone : ∀ marker ∈ trueMarkers, ¬ marker.toList <+: ['不', '对'] := by decide
    exact hnone marker hmarker hprefix
  · obtain rfl : '不' = c := (List.cons.inj h).1
    exact ⟨"不", by decide, by decide⟩
  · have hlength := congrArg List.length h
    have hpos : ∀ marker ∈ trueMarkers, 0 < marker.toList.length := by decide
    have hmarker_pos := hpos marker hmarker
    simp only [List.length_append, List.length_cons, List.length_nil] at hlength
    omega

theorem negated_judgement_not_right :
    (NotTrue defaultBank "不对" ↔ strip "不对" ≠ "T" ∧
        (hits trueMarkers (strip "不对") = true → hits falseMarkers (strip "不对") = true)) ∧
      (SaysNot "不对" → NotTrue defaultBank "不对") :=
  negated_judgement defaultBank rfl rfl "不对" negated_not_right

theorem not_right_read_as_true : ¬ ∀ tiku : Tiku, tiku.trueList = defaultTrue →
    tiku.falseList = defaultFalse → ∀ answer, Negated answer → NotTrue tiku answer := by
  intro h
  exact h defaultBank rfl rfl "不对" negated_not_right "正确" (by decide) (by decide)

end UniversityHelper.AnswerBank
