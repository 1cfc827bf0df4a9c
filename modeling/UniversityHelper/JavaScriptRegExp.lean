import UniversityHelper.JavaScriptText

/-! Pieces of JavaScript's regular expressions as matchers of the text that is left, each with what
follows it in the pattern, and delimiters that hold a number. -/
namespace UniversityHelper.JavaScript
variable {β γ : Type*}

/-- A line terminator, which `.` does not match. -/
def isLineEnd (c : Char) : Bool := c = '\n' ∨ c = '\r' ∨ c.toNat = 0x2028 ∨ c.toNat = 0x2029

def OneLine (cs : List Char) : Prop := ∀ c ∈ cs, isLineEnd c = false

instance (cs : List Char) : Decidable (OneLine cs) := List.decidableBAll (isLineEnd · = false) cs

/-- The captures of a match of the whole text that is left. -/
abbrev Matcher (β : Type*) := List Char → Option β

def literal (text : List Char) (next : Matcher β) : Matcher β := fun cs =>
  if text <+: cs then next (cs.drop text.length) else none

/-- A literal of ASCII characters under the flag `i`. -/
def literalAnyCase (text : List Char) (next : Matcher β) : Matcher β := fun cs =>
  if (cs.take text.length).map Char.toUpper = text.map Char.toUpper then next (cs.drop text.length) else none

/-- `\s*`. -/
def spaces (next : Matcher β) : Matcher β
  | [] => next []
  | c :: cs => if isSpace c = true then (spaces next cs).or (next (c :: cs)) else next (c :: cs)

/-- `(\d+)`, where what follows cannot begin with a digit. -/
def digits (next : Matcher β) : Matcher (List Char × β) := fun cs =>
  let run := cs.takeWhile Char.isDigit
  if run = [] then none else (next (cs.drop run.length)).map (run, ·)

/-- `(.*?)`: the shortest text after which the rest matches. -/
def dots (next : Matcher β) : Matcher (List Char × β)
  | [] => (next []).map ([], ·)
  | c :: cs =>
    match next (c :: cs) with
    | some found => some ([], found)
    | none => if isLineEnd c = true then none else (dots next cs).map fun m => (c :: m.1, m.2)

/-- `(.+?)`. -/
def dotsPlus (next : Matcher β) : Matcher (List Char × β)
  | [] => none
  | c :: cs => if isLineEnd c = true then none else (dots next cs).map fun m => (c :: m.1, m.2)

/-- `(.*)$`. -/
def restOfLine : Matcher (List Char) := fun cs => if OneLine cs then some cs else none

/-- `Number(text)` for a text of digits: the double nearest to the number, ties to even, and `none`
for infinity. -/
def number (text : List Char) : Option ℕ :=
  let n := Nat.ofDigitChars 10 text 0
  let unit := 2 ^ (Nat.size n - 53)
  let low := n % unit
  let high := n / unit
  let rounded := if 2 * low < unit ∨ (2 * low = unit ∧ high % 2 = 0) then high else high + 1
  if rounded * unit < 2 ^ 1024 then some (rounded * unit) else none

variable {cs taken rest p word : List Char} {next : Matcher β} {found : β}

theorem literal_append (text rest : List Char) : literal text next (text ++ rest) = next rest := by
  simp [literal]

theorem literalAnyCase_append (text rest : List Char) : literalAnyCase text next (text ++ rest) = next rest := by
  simp [literalAnyCase]

theorem literal_eq_some :
    literal word next cs = some found ↔ ∃ rest, cs = word ++ rest ∧ next rest = some found := by
  constructor
  · intro h
    unfold literal at h
    split_ifs at h with hstarts
    obtain ⟨rest, rfl⟩ := hstarts
    exact ⟨rest, rfl, by simpa using h⟩
  · rintro ⟨rest, rfl, h⟩
    rw [literal_append, h]

theorem OneLine.append (h : OneLine p) (g : OneLine rest) : OneLine (p ++ rest) := by
  intro c hc
  rcases List.mem_append.mp hc with hc | hc
  · exact h c hc
  · exact g c hc

theorem OneLine.left (h : OneLine (p ++ rest)) : OneLine p :=
  fun c hc => h c (List.mem_append_left rest hc)

theorem OneLine.right (h : OneLine (p ++ rest)) : OneLine rest :=
  fun c hc => h c (List.mem_append_right p hc)

theorem restOfLine_eq_some : restOfLine cs = some taken ↔ OneLine cs ∧ taken = cs := by
  unfold restOfLine
  split_ifs with h <;> simp [h, eq_comm]

/-- `\s*(.*)$` leaves the white space at the beginning out of its group. -/
theorem spaces_restOfLine (cs : List Char) : spaces restOfLine cs = restOfLine (cs.dropWhile isSpace) := by
  induction cs with
  | nil => rfl
  | cons c cs ih =>
    rw [spaces]
    split_ifs with hc
    · rw [ih, List.dropWhile_cons_of_pos hc]
      by_cases hline : OneLine (cs.dropWhile isSpace)
      · rw [restOfLine, if_pos hline, Option.some_or]
      · have hmore : ¬ OneLine (c :: cs) := by
          intro hall
          refine hline fun d hd => hall d (List.mem_cons_of_mem c ?_)
          exact (List.dropWhile_suffix _).subset hd
        rw [restOfLine, if_neg hline, Option.none_or, restOfLine, if_neg hmore]
    · rw [List.dropWhile_cons_of_neg hc]

/-- The match is the first place from which the rest of the pattern matches. -/
theorem dots_eq_some : dots next cs = some (taken, found) ↔
    ∃ rest, cs = taken ++ rest ∧ OneLine taken ∧ next rest = some found ∧
      ∀ p s, taken = p ++ s → s ≠ [] → next (s ++ rest) = none := by
  induction cs generalizing taken with
  | nil =>
    rw [dots, Option.map_eq_some_iff]
    constructor
    · rintro ⟨found, hfound, heq⟩
      cases heq
      refine ⟨[], rfl, by simp [OneLine], hfound, ?_⟩
      rintro p s hsplit hs
      exact absurd (List.append_eq_nil_iff.mp hsplit.symm).2 hs
    · rintro ⟨rest, hcs, -, hfound, -⟩
      obtain ⟨rfl, rfl⟩ := List.append_eq_nil_iff.mp hcs.symm
      exact ⟨found, hfound, rfl⟩
  | cons c cs ih =>
    unfold dots
    cases hhere : next (c :: cs) with
    | some here =>
      simp only [Option.some.injEq, Prod.mk.injEq]
      constructor
      · rintro ⟨rfl, rfl⟩
        refine ⟨c :: cs, rfl, by simp [OneLine], hhere, ?_⟩
        rintro p s hsplit hs
        exact absurd (List.append_eq_nil_iff.mp hsplit.symm).2 hs
      · rintro ⟨rest, hcs, -, hfound, hfirst⟩
        cases taken with
        | nil =>
          obtain rfl : c :: cs = rest := hcs
          exact ⟨rfl, Option.some_inj.mp (hhere.symm.trans hfound)⟩
        | cons d taken =>
          have hnone := hfirst [] (d :: taken) rfl (by simp)
          rw [← hcs, hhere] at hnone
          cases hnone
    | none =>
      by_cases hend : isLineEnd c = true
      · simp only [if_pos hend]
        constructor
        · rintro ⟨⟩
        · rintro ⟨rest, hcs, hline, hfound, -⟩
          cases taken with
          | nil =>
            obtain rfl : c :: cs = rest := hcs
            rw [hhere] at hfound
            cases hfound
          | cons d taken =>
            obtain ⟨rfl, -⟩ := List.cons.inj hcs
            rw [hline c List.mem_cons_self] at hend
            cases hend
      · simp only [if_neg hend, Option.map_eq_some_iff, Prod.mk.injEq]
        constructor
        · rintro ⟨⟨taken, found⟩, hrest, rfl, rfl⟩
          obtain ⟨rest, rfl, hline, hfound, hfirst⟩ := ih.mp hrest
          refine ⟨rest, rfl, ?_, hfound, ?_⟩
          · intro d hd
            rcases List.mem_cons.mp hd with rfl | hd
            · simpa using hend
            · exact hline d hd
          · intro p s hsplit hs
            cases p with
            | nil =>
              obtain rfl : c :: taken = s := hsplit
              exact hhere
            | cons d p => exact hfirst p s (List.cons.inj hsplit).2 hs
        · rintro ⟨rest, hcs, hline, hfound, hfirst⟩
          cases taken with
          | nil =>
            obtain rfl : c :: cs = rest := hcs
            rw [hhere] at hfound
            cases hfound
          | cons d taken =>
            obtain ⟨rfl, rfl⟩ := List.cons.inj hcs
            refine ⟨(taken, found), ih.mpr ⟨rest, rfl, ?_, hfound, ?_⟩, rfl, rfl⟩
            · exact fun d hd => hline d (List.mem_cons_of_mem c hd)
            · rintro p s rfl hs
              exact hfirst (c :: p) s rfl hs

theorem dotsPlus_eq_some : dotsPlus next cs = some (taken, found) ↔
    ∃ c more rest, taken = c :: more ∧ cs = taken ++ rest ∧ OneLine taken ∧ next rest = some found ∧
      ∀ p s, more = p ++ s → s ≠ [] → next (s ++ rest) = none := by
  cases cs with
  | nil =>
    constructor
    · rintro ⟨⟩
    · rintro ⟨c, more, rest, rfl, hcs, -⟩
      cases hcs
  | cons c cs =>
    have hmore : ∀ {more}, OneLine (c :: more) ↔ isLineEnd c = false ∧ OneLine more := by
      simp [OneLine]
    simp only [dotsPlus]
    split_ifs with hend
    · constructor
      · rintro ⟨⟩
      · rintro ⟨d, more, rest, rfl, hcs, hline, -⟩
        obtain ⟨rfl, -⟩ := List.cons.inj hcs
        rw [hline c List.mem_cons_self] at hend
        cases hend
    · simp only [Option.map_eq_some_iff, Prod.mk.injEq, Prod.exists]
      constructor
      · rintro ⟨more, found, hrest, rfl, rfl⟩
        obtain ⟨rest, rfl, hline, hfound, hfirst⟩ := dots_eq_some.mp hrest
        exact ⟨c, more, rest, rfl, rfl, hmore.mpr ⟨by simpa using hend, hline⟩, hfound, hfirst⟩
      · rintro ⟨d, more, rest, rfl, hcs, hline, hfound, hfirst⟩
        obtain ⟨rfl, rfl⟩ := List.cons.inj hcs
        exact ⟨more, found, dots_eq_some.mpr ⟨rest, rfl, (hmore.mp hline).2, hfound, hfirst⟩, rfl, rfl⟩

theorem digits_append {run : List Char} {c : Char} (hrun : ∀ d ∈ run, d.isDigit = true) (hne : run ≠ [])
    (hc : c.isDigit = false) (rest : List Char) :
    digits next (run ++ c :: rest) = (next (c :: rest)).map (run, ·) := by
  have htake : (run ++ c :: rest).takeWhile Char.isDigit = run := by
    rw [List.takeWhile_append_of_pos hrun, List.takeWhile_cons_of_neg (by simp [hc]), List.append_nil]
  simp only [digits, htake, if_neg hne, List.drop_left]

theorem digits_eq_some {run : List Char} (h : digits next cs = some (run, found)) :
    ∃ rest, cs = run ++ rest ∧ run ≠ [] ∧ (∀ d ∈ run, d.isDigit = true) ∧ next rest = some found := by
  simp only [digits] at h
  split_ifs at h with hne
  obtain ⟨found', hfound, heq⟩ := Option.map_eq_some_iff.mp h
  cases heq
  refine ⟨_, ?_, hne, fun d hd => (List.mem_takeWhile_imp hd), hfound⟩
  exact (List.prefix_iff_eq_append.mp (List.takeWhile_prefix _)).symm

/-! ### Delimiters -/

/-- A delimiter with a number inside; its first character marks where one begins. -/
structure Delimiter where
  mark : Char
  before : List Char
  next : Char
  after : List Char
  mark_before : mark ∉ before
  mark_after : mark ∉ next :: after
  mark_digit : mark.isDigit = false
  next_digit : next.isDigit = false
  before_line : OneLine (mark :: before)
  after_line : OneLine (next :: after)

namespace Delimiter

def text (d : Delimiter) (run : List Char) : List Char := d.mark :: (d.before ++ run ++ d.next :: d.after)

/-- The texts that can be the number. -/
def IsNumber (run : List Char) : Prop := run ≠ [] ∧ ∀ c ∈ run, c.isDigit = true

def matcher (d : Delimiter) (tail : Matcher γ) : Matcher (List Char × γ) :=
  literal (d.mark :: d.before) (digits (literal (d.next :: d.after) tail))

/-- Somewhere in the text is the delimiter with some number. -/
def OccursIn (d : Delimiter) (cs : List Char) : Prop := ∃ run, IsNumber run ∧ d.text run <:+: cs

variable {d : Delimiter} {tail : Matcher γ} {x : γ} {run : List Char}

theorem matcher_text (hrun : IsNumber run) (rest : List Char) :
    d.matcher tail (d.text run ++ rest) = (tail rest).map (run, ·) := by
  have hsplit : d.text run ++ rest = (d.mark :: d.before) ++ (run ++ (d.next :: (d.after ++ rest))) := by
    simp [text]
  rw [hsplit, matcher, literal_append, digits_append hrun.2 hrun.1 d.next_digit, ← List.cons_append,
    literal_append]

theorem matcher_eq_some : d.matcher tail cs = some (run, x) ↔
    IsNumber run ∧ ∃ rest, cs = d.text run ++ rest ∧ tail rest = some x := by
  constructor
  · intro h
    obtain ⟨rest, rfl, hdigits⟩ := literal_eq_some.mp h
    obtain ⟨rest, rfl, hne, hrun, hafter⟩ := digits_eq_some hdigits
    obtain ⟨rest, rfl, htail⟩ := literal_eq_some.mp hafter
    exact ⟨⟨hne, hrun⟩, rest, by simp [text], htail⟩
  · rintro ⟨hrun, rest, rfl, htail⟩
    rw [matcher_text hrun, htail, Option.map_some]

theorem mark_tail (hrun : IsNumber run) : d.mark ∉ d.before ++ run ++ d.next :: d.after := by
  have hdigits : d.mark ∉ run := fun hmark => by simpa [d.mark_digit] using hrun.2 d.mark hmark
  simp only [List.mem_append, not_or]
  exact ⟨⟨d.mark_before, hdigits⟩, d.mark_after⟩

theorem text_line (hrun : IsNumber run) : OneLine (d.text run) := by
  have hdigits : OneLine run := by
    intro c hc
    have hdigit := hrun.2 c hc
    by_contra hend
    rw [Bool.not_eq_false, isLineEnd, decide_eq_true_eq] at hend
    rcases hend with rfl | rfl | hcode | hcode
    · cases hdigit
    · cases hdigit
    all_goals
      simp only [Char.isDigit, Bool.and_eq_true, decide_eq_true_eq, UInt32.le_iff_toNat_le] at hdigit
      have hnine : '9'.val.toNat = 57 := rfl
      have hval : c.val.toNat = c.toNat := rfl
      omega
  have hsplit : d.text run = (d.mark :: d.before) ++ (run ++ (d.next :: d.after)) := by simp [text]
  rw [hsplit]
  exact d.before_line.append (hdigits.append d.after_line)

end Delimiter

/-- A text that begins with a mark which it does not repeat lies before or after another such mark. -/
theorem prefix_of_mark {q : Char} {u v w rest : List Char} (hq : q ∉ u.tail) (hv : v ≠ [])
    (h : u ++ rest = v ++ q :: w) : u <+: v := by
  have hlength : u.length ≤ v.length := by
    by_contra hlong
    have hget : (u ++ rest)[v.length]? = some q := by simp [h]
    rw [List.getElem?_append_left (by omega)] at hget
    cases u with
    | nil => simp at hlong
    | cons a u =>
      cases v with
      | nil => exact hv rfl
      | cons b v =>
        rw [List.length_cons, List.getElem?_cons_succ] at hget
        exact hq (List.mem_of_getElem? hget)
  exact List.prefix_of_prefix_length_le (h ▸ List.prefix_append u rest) (List.prefix_append v _) hlength

theorem infix_of_mark {q : Char} {u v w : List Char} (hq : q ∉ u.tail) (h : u <:+: v ++ q :: w) :
    u <:+: v ∨ u <:+: q :: w := by
  obtain ⟨p, s, hps⟩ := h
  rw [List.append_assoc] at hps
  rcases List.append_eq_append_iff.mp hps with ⟨more, hv, hus⟩ | ⟨more, hp, hqw⟩
  · cases more with
    | nil => exact .inr ⟨[], s, by simpa using hus⟩
    | cons a more =>
      have hstarts := prefix_of_mark hq (List.cons_ne_nil a more) hus
      rw [hv]
      exact .inl (hstarts.isInfix.trans (List.suffix_append p _).isInfix)
  · exact .inr ⟨more, s, by rw [hqw, List.append_assoc]⟩

/-- A text that begins with a mark lies after what has no such mark. -/
theorem infix_of_absent {q : Char} {u v w : List Char} (hq : q ∉ v) (h : q :: u <:+: v ++ w) :
    q :: u <:+: w := by
  induction v with
  | nil => exact h
  | cons a v ih =>
    rw [List.mem_cons, not_or] at hq
    rw [List.cons_append, List.infix_cons_iff] at h
    rcases h with hstarts | hinside
    · exact absurd (List.cons_prefix_cons.mp hstarts).1 hq.1
    · exact ih hq.2 hinside

theorem dots_ne_none (hline : OneLine p) (hrest : next rest ≠ none) : dots next (p ++ rest) ≠ none := by
  induction p with
  | nil =>
    obtain ⟨found, hfound⟩ := Option.ne_none_iff_exists'.mp hrest
    cases rest with
    | nil => simp [dots, hfound]
    | cons c rest => simp [dots, hfound]
  | cons c p ih =>
    have hc : ¬ isLineEnd c = true := by simp [hline c List.mem_cons_self]
    simp only [List.cons_append, dots]
    cases next (c :: (p ++ rest)) with
    | some found => simp
    | none =>
      rw [if_neg hc, ne_eq, Option.map_eq_none_iff]
      exact ih fun e he => hline e (List.mem_cons_of_mem c he)

namespace Delimiter
variable {d : Delimiter} {tail : Matcher γ} {x : γ} {run found : List Char} {title : List Char}

/-- The tail of a pattern that matches the one-line texts, and no others. -/
def MatchesLines (tail : Matcher γ) : Prop := ∀ cs, tail cs ≠ none ↔ OneLine cs

/-- What `^…(.+?)` before the delimiter captures is the whole title exactly if the title is not empty,
has one line, and no such delimiter after its first character. -/
theorem dotsPlus_title (hlines : MatchesLines tail) (hrun : IsNumber run) :
    dotsPlus (d.matcher tail) (title ++ (d.text run ++ rest)) = some (title, found, x) ↔
      title ≠ [] ∧ OneLine title ∧ ¬ d.OccursIn title.tail ∧ found = run ∧ tail rest = some x := by
  rw [dotsPlus_eq_some]
  constructor
  · rintro ⟨c, more, rest', rfl, hsplit, hline, hmatch, hfirst⟩
    obtain rfl := List.append_cancel_left hsplit
    rw [matcher_text hrun, Option.map_eq_some_iff] at hmatch
    obtain ⟨y, htail, heq⟩ := hmatch
    cases heq
    refine ⟨by simp, hline, ?_, rfl, htail⟩
    rintro ⟨run', hrun', p, s, hmore⟩
    obtain rfl : p ++ d.text run' ++ s = more := hmore
    have hnone := hfirst p (d.text run' ++ s) (List.append_assoc _ _ _) (by simp [text])
    rw [List.append_assoc, matcher_text hrun', Option.map_eq_none_iff] at hnone
    have hmore : OneLine (p ++ d.text run' ++ s) := fun e he => hline e (List.mem_cons_of_mem c he)
    have hs : OneLine s := hmore.right
    have hrest : OneLine rest := (hlines rest).mp (by rw [htail]; exact Option.some_ne_none _)
    exact (hlines _).mpr (hs.append ((text_line hrun).append hrest)) hnone
  · rintro ⟨hne, hline, hfree, rfl, htail⟩
    obtain ⟨c, more, rfl⟩ := List.exists_cons_of_ne_nil hne
    refine ⟨c, more, d.text found ++ rest, rfl, rfl, hline, ?_, ?_⟩
    · rw [matcher_text hrun, htail, Option.map_some]
    · rintro p s rfl hs
      by_contra hsome
      obtain ⟨⟨run', y⟩, hmatch⟩ := Option.ne_none_iff_exists'.mp hsome
      obtain ⟨hrun', rest', hsplit, -⟩ := matcher_eq_some.mp hmatch
      have hmark : d.text run' ++ rest' = s ++ d.mark :: (d.before ++ found ++ d.next :: d.after ++ rest) := by
        rw [← hsplit]
        simp [text]
      have hstarts : d.text run' <+: s := prefix_of_mark (mark_tail hrun') hs hmark
      exact hfree ⟨run', hrun', hstarts.isInfix.trans (List.suffix_append p s).isInfix⟩

/-- On one line the pattern matches exactly if the delimiter occurs after the first character. -/
theorem dotsPlus_none (hlines : MatchesLines tail) (hline : OneLine cs) :
    dotsPlus (d.matcher tail) cs = none ↔ ¬ d.OccursIn cs.tail := by
  constructor
  · rintro hnone ⟨run, hrun, p, s, hsplit⟩
    cases cs with
    | nil => simp [text] at hsplit
    | cons c cs =>
      obtain rfl : p ++ d.text run ++ s = cs := hsplit
      have hc : ¬ isLineEnd c = true := by simp [hline c List.mem_cons_self]
      have hall : OneLine (p ++ d.text run ++ s) := fun e he => hline e (List.mem_cons_of_mem c he)
      simp only [dotsPlus, if_neg hc, Option.map_eq_none_iff] at hnone
      rw [List.append_assoc] at hall hnone
      refine dots_ne_none hall.left ?_ hnone
      rw [matcher_text hrun, ne_eq, Option.map_eq_none_iff]
      exact (hlines s).mpr hall.right.right
  · intro hfree
    by_contra hsome
    obtain ⟨⟨title, run, y⟩, hmatch⟩ := Option.ne_none_iff_exists'.mp hsome
    obtain ⟨c, more, rest, rfl, rfl, -, hhere, -⟩ := dotsPlus_eq_some.mp hmatch
    obtain ⟨hrun, rest, rfl, -⟩ := matcher_eq_some.mp hhere
    exact hfree ⟨run, hrun, more, rest, by simp⟩

end Delimiter

end UniversityHelper.JavaScript
