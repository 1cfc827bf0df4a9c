import UniversityHelper.LearningWorker

/-! When `_select_courses` and `_chapter_limit_for` select exactly what the selectors name. -/
namespace UniversityHelper.LearningWorker

/-- The parts of a selector, between its underscores. -/
def parts (raw : String) : List String := (splitText (strip raw) '_').filter (· ≠ "")

def ids (course : Course) : List String := [course.courseId, course.clazzId, course.cpi]

/-- The parts that stand for ids: a course id, optionally a class id and a cpi. -/
def idParts (raw : String) : List String := (parts raw).take 3

/-- The selector names the course, by a course id, a class id and a cpi as far as it gives them. -/
def Names (raw : String) (course : Course) : Prop := idParts raw <+: ids course

def NamedBy (selectors : List String) (course : Course) : Prop := ∃ raw ∈ selectors, Names raw course

/-- The courses in question in the order of the list, once for each triple of ids. -/
structure Selects (allCourses : List Course) (named : Course → Prop) (selected : List Course) : Prop where
  ordered : selected.Sublist allCourses
  sound : ∀ course ∈ selected, named course
  once : (selected.map ids).Nodup
  complete : ∀ course ∈ allCourses, named course → ids course ∈ selected.map ids

/-- The limit of a selector that names the course with the most parts, if one names it. -/
def BestLimit (course : Course) (limits : List (String × String)) : Option String → Prop
  | none => ∀ limit ∈ limits, ¬ Names limit.1 course
  | some pointId => ∃ limit ∈ limits, limit.2 = pointId ∧ Names limit.1 course ∧
      ∀ other ∈ limits, Names other.1 course → (idParts other.1).length ≤ (idParts limit.1).length

variable {raw : String} {course : Course} {selector : Selector} {selectors : List String}
  {allCourses : List Course} {limits : List (String × String)}

/-! ### One selector -/

theorem part_ne {part : String} (h : part ∈ parts raw) : part ≠ "" := by
  simpa using (List.mem_filter.mp h).2

theorem parse_eq_none (nonblank : strip raw ≠ "") : parseCourseSelector raw = none ↔ parts raw = [] := by
  rw [parseCourseSelector, if_neg nonblank]
  constructor
  · intro h
    split at h
    · next hparts => exact hparts
    all_goals cases h
  · intro h
    have hparts : (splitText (strip raw) '_').filter (· ≠ "") = [] := h
    rw [hparts]

/-- What a selector means that was parsed. -/
structure Means (raw : String) (selector : Selector) : Prop where
  names : ∀ course, courseMatchesSelector course selector = true ↔ Names raw course
  specificity : selector.specificity = (idParts raw).length
  course : selector.course ≠ ""
  specific : 0 < (idParts raw).length

theorem parse_means (nonblank : strip raw ≠ "") (h : parseCourseSelector raw = some selector) :
    Means raw selector := by
  rw [parseCourseSelector, if_neg nonblank] at h
  have hne : ∀ part ∈ parts raw, part ≠ "" := fun part => part_ne
  split at h
  · cases h
  · next first hparts =>
    cases h
    have hfirst : parts raw = [first] := hparts
    rw [hfirst] at hne
    have hne' : first ≠ "" := hne first (by simp)
    constructor
    · intro course
      simp [courseMatchesSelector, Names, idParts, hfirst, ids, hne',
        eq_comm (a := course.courseId)]
    · simp [Selector.specificity, idParts, hfirst, hne']
    · exact hne'
    · simp [idParts, hfirst]
  · next first second hparts =>
    cases h
    have hsecond : parts raw = [first, second] := hparts
    rw [hsecond] at hne
    have hne' : first ≠ "" ∧ second ≠ "" := ⟨hne first (by simp), hne second (by simp)⟩
    constructor
    · intro course
      simp [courseMatchesSelector, Names, idParts, hsecond, ids, hne',
        eq_comm (a := course.courseId), eq_comm (a := course.clazzId)]
    · simp [Selector.specificity, idParts, hsecond, hne']
    · exact hne'.1
    · simp [idParts, hsecond]
  · next first second third rest hparts =>
    cases h
    have hthird : parts raw = first :: second :: third :: rest := hparts
    rw [hthird] at hne
    have hne' : first ≠ "" ∧ second ≠ "" ∧ third ≠ "" :=
      ⟨hne first (by simp), hne second (by simp), hne third (by simp)⟩
    constructor
    · intro course
      simp [courseMatchesSelector, Names, idParts, hthird, ids, hne',
        eq_comm (a := course.courseId), eq_comm (a := course.clazzId), eq_comm (a := course.cpi),
        and_assoc]
    · simp [Selector.specificity, idParts, hthird, hne']
    · exact hne'.1
    · simp [idParts, hthird]

theorem mapM_parse (nonblank : ∀ raw ∈ selectors, strip raw ≠ "") (named : ∀ raw ∈ selectors, parts raw ≠ []) :
    ∃ parsed, selectors.mapM parseCourseSelector = some parsed ∧
      ∀ course, parsed.any (courseMatchesSelector course) = true ↔ NamedBy selectors course := by
  induction selectors with
  | nil => exact ⟨[], rfl, by simp [NamedBy]⟩
  | cons raw selectors ih =>
    obtain ⟨parsed, hparsed, hany⟩ := ih (fun r hr => nonblank r (List.mem_cons_of_mem _ hr))
      fun r hr => named r (List.mem_cons_of_mem _ hr)
    have hraw := nonblank raw List.mem_cons_self
    cases hselector : parseCourseSelector raw with
    | none => exact absurd ((parse_eq_none hraw).mp hselector) (named raw List.mem_cons_self)
    | some selector =>
      refine ⟨selector :: parsed, by simp [hselector, hparsed], fun course => ?_⟩
      rw [List.any_cons, Bool.or_eq_true, (parse_means hraw hselector).names, hany]
      simp [NamedBy]

theorem mapM_raises (nonblank : ∀ raw ∈ selectors, strip raw ≠ "") (h : raw ∈ selectors)
    (hraw : parts raw = []) : selectors.mapM parseCourseSelector = none := by
  induction selectors with
  | nil => cases h
  | cons first selectors ih =>
    rcases List.mem_cons.mp h with rfl | hmem
    · simp [(parse_eq_none (nonblank raw List.mem_cons_self)).mpr hraw]
    · have hrest := ih (fun r hr => nonblank r (List.mem_cons_of_mem _ hr)) hmem
      cases hfirst : parseCourseSelector first <;> simp [hfirst, hrest]

/-! ### The courses -/

/-- Two courses that the selectors name are not taken for one unless their ids are the same. -/
def Distinguished (allCourses : List Course) (named : Course → Prop) : Prop :=
  ∀ course ∈ allCourses, ∀ other ∈ allCourses, named course → named other →
    identity course = identity other → ids course = ids other

/-- What holds of the selected courses when the courses of `before` have been looked at. -/
structure Selecting (named : Course → Prop) (before selected : List Course) : Prop where
  ordered : selected.Sublist before
  sound : ∀ course ∈ selected, named course
  once : (selected.map identity).Nodup
  complete : ∀ course ∈ before, named course → identity course ∈ selected.map identity

theorem Selecting.next {parsed : List Selector} {named : Course → Prop} {before selected : List Course}
    (hnamed : ∀ course, parsed.any (courseMatchesSelector course) = true ↔ named course)
    (h : Selecting named before selected) (course : Course) :
    Selecting named (before ++ [course]) (selectNext parsed selected course) := by
  unfold selectNext
  split_ifs with hnew
  · obtain ⟨hmatch, hfresh⟩ := hnew
    refine ⟨h.ordered.append (List.Sublist.refl _), ?_, ?_, ?_⟩
    · intro c hc
      rcases List.mem_append.mp hc with hold | hlast
      · exact h.sound c hold
      · rw [List.mem_singleton.mp hlast]
        exact (hnamed course).mp hmatch
    · rw [List.map_append, List.nodup_append]
      refine ⟨h.once, by simp, ?_⟩
      intro x hx y hy heq
      have hy' : y = identity course := by simpa using hy
      exact hfresh (hy' ▸ heq ▸ hx)
    · intro c hc hcn
      rw [List.map_append, List.mem_append]
      rcases List.mem_append.mp hc with hold | hlast
      · exact .inl (h.complete c hold hcn)
      · rw [List.mem_singleton.mp hlast]
        exact .inr (by simp)
  · refine ⟨h.ordered.trans (List.sublist_append_left _ _), h.sound, h.once, ?_⟩
    intro c hc hcn
    rcases List.mem_append.mp hc with hold | hlast
    · exact h.complete c hold hcn
    · rw [List.mem_singleton.mp hlast] at hcn ⊢
      by_contra hfresh
      exact hnew ⟨(hnamed course).mpr hcn, hfresh⟩

theorem Selecting.run {parsed : List Selector} {named : Course → Prop} {before selected : List Course}
    (hnamed : ∀ course, parsed.any (courseMatchesSelector course) = true ↔ named course)
    (h : Selecting named before selected) (rest : List Course) :
    Selecting named (before ++ rest) (rest.foldl (selectNext parsed) selected) := by
  induction rest generalizing before selected with
  | nil => simpa using h
  | cons course rest ih => simpa using ih (h.next hnamed course)

theorem selecting_foldl {parsed : List Selector} {named : Course → Prop}
    (hnamed : ∀ course, parsed.any (courseMatchesSelector course) = true ↔ named course)
    (allCourses : List Course) :
    Selecting named allCourses (allCourses.foldl (selectNext parsed) []) := by
  have hempty : Selecting named [] [] := ⟨List.Sublist.refl _, by simp, by simp, by simp⟩
  simpa using hempty.run hnamed allCourses

theorem identity_of_ids {course other : Course} (h : ids course = ids other) :
    identity course = identity other := by
  have hids : course.courseId = other.courseId ∧ course.clazzId = other.clazzId ∧
      course.cpi = other.cpi := by simpa [ids] using h
  rw [identity, identity, hids.1, hids.2.1, hids.2.2]

/-- The selected courses are the named ones exactly if these are distinguished. -/
theorem Selecting.selects_iff {named : Course → Prop} {selected : List Course}
    (h : Selecting named allCourses selected) :
    Selects allCourses named selected ↔ Distinguished allCourses named := by
  constructor
  · intro hexact course hcourse other hother hnamed hnamed' hsame
    obtain ⟨c, hc, hcids⟩ := List.mem_map.mp (hexact.complete course hcourse hnamed)
    obtain ⟨o, ho, hoids⟩ := List.mem_map.mp (hexact.complete other hother hnamed')
    have hidentity : identity c = identity o := by
      rw [identity_of_ids hcids, identity_of_ids hoids, hsame]
    have heq : c = o := List.inj_on_of_nodup_map h.once hc ho hidentity
    rw [← hcids, ← hoids, heq]
  · intro hdistinguished
    refine ⟨h.ordered, h.sound, ?_, ?_⟩
    · have honce := List.Nodup.of_map identity h.once
      refine List.Nodup.map_on ?_ honce
      intro c hc o ho hids
      exact List.inj_on_of_nodup_map h.once hc ho (identity_of_ids hids)
    · intro course hcourse hnamed
      obtain ⟨c, hc, hsame⟩ := List.mem_map.mp (h.complete course hcourse hnamed)
      refine List.mem_map.mpr ⟨c, hc, ?_⟩
      exact hdistinguished c (h.ordered.subset hc) course hcourse (h.sound c hc) hnamed hsame

/-! ### The limit of a course -/

/-- What holds of the best limit and its specificity when the limits of `before` have been read. -/
structure BestSoFar (course : Course) (before : List (String × String)) (best : Option String × ℕ) :
    Prop where
  unnamed : best.1 = none → best.2 = 0 ∧ ∀ limit ∈ before, ¬ Names limit.1 course
  named : ∀ pointId, best.1 = some pointId → ∃ limit ∈ before, limit.2 = pointId ∧
    Names limit.1 course ∧ best.2 = (idParts limit.1).length
  best : ∀ other ∈ before, Names other.1 course → (idParts other.1).length ≤ best.2

theorem BestSoFar.keep {before : List (String × String)} {best : Option String × ℕ}
    (h : BestSoFar course before best) {limit : String × String}
    (hworse : Names limit.1 course → best.1 ≠ none ∧ (idParts limit.1).length ≤ best.2) :
    BestSoFar course (before ++ [limit]) best := by
  refine ⟨fun hnone => ⟨(h.unnamed hnone).1, ?_⟩, fun pointId hpoint => ?_, ?_⟩
  · intro other hother hnames
    rcases List.mem_append.mp hother with hold | hlast
    · exact (h.unnamed hnone).2 other hold hnames
    · rw [List.mem_singleton.mp hlast] at hnames
      exact (hworse hnames).1 hnone
  · obtain ⟨found, hfound, hrest⟩ := h.named pointId hpoint
    exact ⟨found, List.mem_append_left _ hfound, hrest⟩
  · intro other hother hnames
    rcases List.mem_append.mp hother with hold | hlast
    · exact h.best other hold hnames
    · rw [List.mem_singleton.mp hlast] at hnames ⊢
      exact (hworse hnames).2

theorem BestSoFar.replace {before : List (String × String)} {best : Option String × ℕ}
    (h : BestSoFar course before best) {limit : String × String} (hnames : Names limit.1 course)
    {specificity : ℕ} (hspecific : specificity = (idParts limit.1).length)
    (hbetter : best.2 < specificity) :
    BestSoFar course (before ++ [limit]) (some limit.2, specificity) := by
  refine ⟨fun hnone => ?_, fun pointId hpoint => ?_, ?_⟩
  · cases hnone
  · exact ⟨limit, by simp, Option.some.inj hpoint, hnames, hspecific⟩
  · intro other hother hother'
    rcases List.mem_append.mp hother with hold | hlast
    · exact (h.best other hold hother').trans hbetter.le
    · rw [List.mem_singleton.mp hlast, hspecific]

theorem BestSoFar.next {before : List (String × String)} {best : Option String × ℕ}
    (h : BestSoFar course before best) {limit : String × String} (nonblank : strip limit.1 ≠ "")
    (hnamed : parts limit.1 ≠ []) :
    ∃ best', betterLimit course best limit = some best' ∧ BestSoFar course (before ++ [limit]) best' := by
  cases hselector : parseCourseSelector limit.1 with
  | none => exact absurd ((parse_eq_none nonblank).mp hselector) hnamed
  | some selector =>
    have hmeans := parse_means nonblank hselector
    have hstep : betterLimit course best limit = some
        (if selector.course = "" ∨ courseMatchesSelector course selector = false then best
          else if best.2 < selector.specificity then (some limit.2, selector.specificity) else best) := by
      rw [betterLimit, hselector]
      rfl
    refine ⟨_, hstep, ?_⟩
    by_cases hnames : Names limit.1 course
    · have hmatch : ¬ (selector.course = "" ∨ courseMatchesSelector course selector = false) := by
        rw [(hmeans.names course).mpr hnames]
        simp [hmeans.course]
      rw [if_neg hmatch]
      by_cases hbetter : best.2 < selector.specificity
      · rw [if_pos hbetter]
        exact h.replace hnames hmeans.specificity hbetter
      · rw [if_neg hbetter]
        rw [hmeans.specificity] at hbetter
        refine h.keep fun _ => ⟨fun hnone => hbetter ?_, Nat.le_of_not_lt hbetter⟩
        rw [(h.unnamed hnone).1]
        exact hmeans.specific
    · have hmatch : courseMatchesSelector course selector = false := by
        rw [Bool.eq_false_iff]
        exact fun htrue => hnames ((hmeans.names course).mp htrue)
      rw [if_pos (.inr hmatch)]
      exact h.keep fun hnames' => absurd hnames' hnames

theorem BestSoFar.run {before : List (String × String)} {best : Option String × ℕ}
    (h : BestSoFar course before best) (nonblank : ∀ limit ∈ limits, strip limit.1 ≠ "")
    (hnamed : ∀ limit ∈ limits, parts limit.1 ≠ []) :
    ∃ best', limits.foldlM (betterLimit course) best = some best' ∧
      BestSoFar course (before ++ limits) best' := by
  induction limits generalizing before best with
  | nil => exact ⟨best, rfl, by simpa using h⟩
  | cons limit limits ih =>
    obtain ⟨best₁, hstep, h₁⟩ := h.next (nonblank limit List.mem_cons_self) (hnamed limit List.mem_cons_self)
    obtain ⟨best₂, hrest, h₂⟩ := ih h₁ (fun l hl => nonblank l (List.mem_cons_of_mem _ hl))
      fun l hl => hnamed l (List.mem_cons_of_mem _ hl)
    refine ⟨best₂, by simp [hstep, hrest], ?_⟩
    simpa using h₂

theorem chapterLimitFor_best (course : Course) (nonblank : ∀ limit ∈ limits, strip limit.1 ≠ "")
    (hnamed : ∀ limit ∈ limits, parts limit.1 ≠ []) :
    ∃ limit, chapterLimitFor course limits = some limit ∧ BestLimit course limits limit := by
  have hstart : BestSoFar course [] (none, 0) :=
    ⟨fun _ => ⟨rfl, by simp⟩, fun _ hpoint => absurd hpoint.symm (Option.some_ne_none _), by simp⟩
  obtain ⟨⟨pointId, specificity⟩, hfold, hbest⟩ := hstart.run nonblank hnamed
  refine ⟨pointId, by rw [chapterLimitFor, hfold, Option.map_some], ?_⟩
  cases pointId with
  | none => exact (hbest.unnamed rfl).2
  | some pointId =>
    obtain ⟨limit, hlimit, hpoint, hnames, hspecific⟩ := hbest.named pointId rfl
    refine ⟨limit, hlimit, hpoint, hnames, fun other hother hother' => ?_⟩
    rw [← hspecific]
    exact hbest.best other hother hother'

theorem foldlM_raises (nonblank : ∀ limit ∈ limits, strip limit.1 ≠ "") {limit : String × String}
    (hlimit : limit ∈ limits) (hraw : parts limit.1 = []) (best : Option String × ℕ) :
    limits.foldlM (betterLimit course) best = none := by
  induction limits generalizing best with
  | nil => cases hlimit
  | cons first limits ih =>
    rcases List.mem_cons.mp hlimit with rfl | hmem
    · have hnone := (parse_eq_none (nonblank limit List.mem_cons_self)).mpr hraw
      simp [betterLimit, hnone]
    · have hrest := ih (fun l hl => nonblank l (List.mem_cons_of_mem _ hl)) hmem
      cases hfirst : betterLimit course best first <;> simp [hfirst, hrest]

/-- A selector of underscores only makes both raise; otherwise the limit is a best one, and the
selected courses are the named ones exactly if these are distinguished. -/
theorem course_selection_exact (allCourses : List Course) (selectors : List String)
    (limits : List (String × String)) (nonblank : ∀ raw ∈ selectors, strip raw ≠ "")
    (nonblank_limits : ∀ limit ∈ limits, strip limit.1 ≠ "") :
    selectCourses allCourses [] = some allCourses ∧
    (selectors ≠ [] →
      ((∃ selected, selectCourses allCourses selectors = some selected ∧
          Selects allCourses (NamedBy selectors) selected) ↔
        (∀ raw ∈ selectors, parts raw ≠ []) ∧ Distinguished allCourses (NamedBy selectors))) ∧
    ∀ course, (∃ limit, chapterLimitFor course limits = some limit ∧ BestLimit course limits limit) ↔
      ∀ limit ∈ limits, parts limit.1 ≠ [] := by
  refine ⟨rfl, fun hsome => ?_, fun course => ?_⟩
  · rw [selectCourses, if_neg hsome]
    constructor
    · rintro ⟨selected, hselected, hexact⟩
      have hnamed : ∀ raw ∈ selectors, parts raw ≠ [] := by
        intro raw hraw hparts
        rw [mapM_raises nonblank hraw hparts] at hselected
        cases hselected
      obtain ⟨parsed, hparsed, hmatch⟩ := mapM_parse nonblank hnamed
      rw [hparsed, Option.map_some, Option.some_inj] at hselected
      subst hselected
      exact ⟨hnamed, (selecting_foldl hmatch allCourses).selects_iff.mp hexact⟩
    · rintro ⟨hnamed, hdistinguished⟩
      obtain ⟨parsed, hparsed, hmatch⟩ := mapM_parse nonblank hnamed
      exact ⟨_, by rw [hparsed, Option.map_some],
        (selecting_foldl hmatch allCourses).selects_iff.mpr hdistinguished⟩
  · constructor
    · rintro ⟨limit, hlimit, -⟩ other hother hparts
      rw [chapterLimitFor, foldlM_raises nonblank_limits hother hparts] at hlimit
      cases hlimit
    · exact chapterLimitFor_best course nonblank_limits

def physics : Course := ⟨"205", "301", "77", "Physics", ""⟩

/-- A selector of one underscore makes the selection raise for every list of courses. -/
theorem underscore_selector_raises :
    strip "_" ≠ "" ∧ selectCourses [physics] ["_"] = none ∧ chapterLimitFor physics [("_", "9")] = none := by
  decide

def chemistry : Course := ⟨"206", "302", "78", "Chemistry", ""⟩

/-- Physics is listed twice, and a course that no selector names is listed too. -/
def listedTwice : List Course := [physics, chemistry, physics, ⟨"207", "303", "", "Logic", ""⟩]

theorem distinguished_listedTwice (named : Course → Prop) : Distinguished listedTwice named := by
  intro course hcourse other hother _ _ hsame
  revert hsame
  fin_cases hcourse <;> fin_cases hother <;> decide

theorem course_selection_exact_listedTwice :
    (∃ selected, selectCourses listedTwice ["205", "206_302", "205_301"] = some selected ∧
      Selects listedTwice (NamedBy ["205", "206_302", "205_301"]) selected) ∧
    ∃ limit, chapterLimitFor physics [("205", "9"), ("205_301", "10")] = some limit ∧
      BestLimit physics [("205", "9"), ("205_301", "10")] limit := by
  have hnonblank : ∀ raw ∈ ["205", "206_302", "205_301"], strip raw ≠ "" := by decide
  have hlimits : ∀ limit ∈ [("205", "9"), ("205_301", "10")], strip limit.1 ≠ "" := by decide
  obtain ⟨-, hselect, hlimit⟩ :=
    course_selection_exact listedTwice ["205", "206_302", "205_301"] _ hnonblank hlimits
  exact ⟨(hselect (by simp)).mpr ⟨by decide, distinguished_listedTwice _⟩, (hlimit physics).mpr (by decide)⟩

end UniversityHelper.LearningWorker
