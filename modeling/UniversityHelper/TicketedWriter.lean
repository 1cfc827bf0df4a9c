import UniversityHelper.Threads

set_option linter.unusedSectionVars false

/-! Writers that take a numbered ticket under one lock and wait for their turn under another:
the writes run one at a time and in the order of the tickets, whatever order the writers arrive
in and whichever writes fail. -/
namespace UniversityHelper
variable {C W R : Type*}

inductive Ticket (W : Type*)
  | idle
  | waiting (revision : ℕ) (snapshot : W)
  | writing (revision : ℕ) (snapshot : W)
  | finishing (revision : ℕ)

def Ticket.revision : Ticket W → Option ℕ
  | .idle => none
  | .waiting r _ | .writing r _ | .finishing r => some r

def Ticket.snapshot : Ticket W → Option W
  | .waiting _ w | .writing _ w => some w
  | .idle | .finishing _ => none

/-- Between the turn of a ticket and the release of the next one. -/
def Ticket.inWriter : Ticket W → Bool
  | .writing _ _ | .finishing _ => true
  | .idle | .waiting _ _ => false

/-- The steps that remain until the ticket is given back. -/
def Ticket.remaining : Ticket W → ℕ
  | .idle => 0
  | .waiting _ _ => 3
  | .writing _ _ => 2
  | .finishing _ => 1

/-- One attempt to write; `row` is what was, or would have been, stored for the snapshot. -/
structure Write (W R : Type*) where
  revision : ℕ
  snapshot : W
  row : R
  ok : Bool

structure Tickets (C W R : Type*) where
  lastReserved : ℕ
  lastFinished : ℕ
  holder : C → Ticket W
  reserved : List W
  writes : List (Write W R)

namespace Tickets

def fresh : Tickets C W R := ⟨0, 0, fun _ => .idle, [], []⟩

inductive Action (C W R : Type*)
  | reserve (c : C) (snapshot : W)
  | enter (c : C)
  | write (c : C) (row : R) (ok : Bool)
  | finish (c : C)

variable [DecidableEq C]

def step (t : Tickets C W R) : Action C W R → Option (Tickets C W R)
  | .reserve c snapshot =>
    match t.holder c with
    | .idle => some { t with
        lastReserved := t.lastReserved + 1
        holder := Function.update t.holder c (.waiting (t.lastReserved + 1) snapshot)
        reserved := t.reserved ++ [snapshot] }
    | _ => none
  | .enter c =>
    match t.holder c with
    | .waiting r snapshot =>
      if r = t.lastFinished + 1 then
        some { t with holder := Function.update t.holder c (.writing r snapshot) }
      else none
    | _ => none
  | .write c row ok =>
    match t.holder c with
    | .writing r snapshot => some { t with
        holder := Function.update t.holder c (.finishing r)
        writes := t.writes ++ [⟨r, snapshot, row, ok⟩] }
    | _ => none
  | .finish c =>
    match t.holder c with
    | .finishing r => some { t with
        lastFinished := r
        holder := Function.update t.holder c .idle }
    | _ => none

/-- The tickets after `lastFinished` are held, each by one writer, and the ticket whose turn it
is is the only one that may be inside the writer. -/
structure Ordered (t : Tickets C W R) : Prop where
  counted : t.reserved.length = t.lastReserved
  finished : t.lastFinished ≤ t.lastReserved
  pending : ∀ c r, (t.holder c).revision = some r → t.lastFinished < r ∧ r ≤ t.lastReserved
  unique : ∀ c d r, (t.holder c).revision = some r → (t.holder d).revision = some r → c = d
  held : ∀ r, t.lastFinished < r → r ≤ t.lastReserved → ∃ c, (t.holder c).revision = some r
  captured : ∀ c r w, (t.holder c).revision = some r → (t.holder c).snapshot = some w →
    t.reserved[r - 1]? = some w
  turn : ∀ c, (t.holder c).inWriter = true → (t.holder c).revision = some (t.lastFinished + 1)
  written : (t.writes.length = t.lastFinished ∧ ∀ c r, t.holder c ≠ .finishing r) ∨
    (t.writes.length = t.lastFinished + 1 ∧ ∃ c, t.holder c = .finishing (t.lastFinished + 1))
  numbered : t.writes.map Write.revision = List.range' 1 t.writes.length
  faithful : ∀ w ∈ t.writes, t.reserved[w.revision - 1]? = some w.snapshot

theorem ordered_fresh : Ordered (fresh : Tickets C W R) := by
  refine ⟨rfl, le_refl _, ?_, ?_, ?_, ?_, ?_, Or.inl ⟨rfl, ?_⟩, rfl, ?_⟩ <;>
    intros <;> simp_all [fresh, Ticket.revision, Ticket.inWriter]

theorem Ordered.inWriter_unique {t : Tickets C W R} (h : t.Ordered) {c d : C}
    (hc : (t.holder c).inWriter = true) (hd : (t.holder d).inWriter = true) : c = d :=
  h.unique c d _ (h.turn c hc) (h.turn d hd)

theorem Ordered.reserve {t : Tickets C W R} (h : t.Ordered) {c : C} (idle : t.holder c = .idle)
    (snapshot : W) :
    Ordered { t with
      lastReserved := t.lastReserved + 1
      holder := Function.update t.holder c (.waiting (t.lastReserved + 1) snapshot)
      reserved := t.reserved ++ [snapshot] } := by
  have hcount := h.counted
  have hfin := h.finished
  have hmove : ∀ d r,
      (Function.update t.holder c (.waiting (t.lastReserved + 1) snapshot) d).revision = some r →
        d = c ∧ r = t.lastReserved + 1 ∨ d ≠ c ∧ (t.holder d).revision = some r := by
    intro d r hd
    by_cases hdc : d = c
    · subst hdc
      rw [Function.update_self] at hd
      exact Or.inl ⟨rfl, (Option.some_inj.mp hd).symm⟩
    · rw [Function.update_of_ne hdc] at hd
      exact Or.inr ⟨hdc, hd⟩
  refine ⟨?_, ?_, fun d r hd => ?_, fun d e r hd he => ?_, fun r hlow hhigh => ?_,
    fun d r w hd hw => ?_, fun d hd => ?_, ?_, h.numbered, fun w hw => ?_⟩
  · simp [hcount]
  · dsimp only
    omega
  · dsimp only
    rcases hmove d r hd with ⟨-, hr⟩ | ⟨-, hold⟩
    · omega
    · have hp := h.pending d r hold
      omega
  · rcases hmove d r hd with ⟨hdc, hr⟩ | ⟨-, hold⟩ <;> rcases hmove e r he with ⟨hec, hr'⟩ | ⟨-, hold'⟩
    · exact hdc.trans hec.symm
    · have hp := h.pending e r hold'
      omega
    · have hp := h.pending d r hold
      omega
    · exact h.unique d e r hold hold'
  · dsimp only at hlow hhigh ⊢
    rcases Nat.lt_or_ge t.lastReserved r with hnew | hold
    · refine ⟨c, ?_⟩
      rw [Function.update_self, Ticket.revision]
      congr 1
      omega
    · obtain ⟨d, hd⟩ := h.held r hlow hold
      have hdc : d ≠ c := by
        rintro rfl
        rw [idle] at hd
        cases hd
      exact ⟨d, by rw [Function.update_of_ne hdc]; exact hd⟩
  · rcases hmove d r hd with ⟨rfl, rfl⟩ | ⟨hdc, hold⟩
    · dsimp only at hw ⊢
      rw [Function.update_self] at hw
      obtain rfl : snapshot = w := Option.some_inj.mp hw
      rw [← hcount, Nat.add_sub_cancel, List.getElem?_concat_length]
    · dsimp only at hw ⊢
      rw [Function.update_of_ne hdc] at hw
      have hp := h.pending d r hold
      rw [List.getElem?_append_left (by omega)]
      exact h.captured d r w hold hw
  · by_cases hdc : d = c
    · subst hdc
      simp only [Function.update_self, Ticket.inWriter, Bool.false_eq_true] at hd
    · simp only [Function.update_of_ne hdc] at hd ⊢
      exact h.turn d hd
  · rcases h.written with ⟨hlen, hnone⟩ | ⟨hlen, d, hd⟩
    · refine Or.inl ⟨hlen, fun d r => ?_⟩
      by_cases hdc : d = c
      · subst hdc
        simp
      · simp only [Function.update_of_ne hdc]
        exact hnone d r
    · have hdc : d ≠ c := by
        rintro rfl
        rw [idle] at hd
        cases hd
      exact Or.inr ⟨hlen, d, by simp only [Function.update_of_ne hdc]; exact hd⟩
  · have hf := h.faithful w hw
    obtain ⟨hlt, -⟩ := List.getElem?_eq_some_iff.mp hf
    dsimp only
    rw [List.getElem?_append_left hlt]
    exact hf

theorem revision_update {t : Tickets C W R} {c : C} {next : Ticket W}
    (same : next.revision = (t.holder c).revision) (d : C) :
    (Function.update t.holder c next d).revision = (t.holder d).revision := by
  by_cases hdc : d = c
  · subst hdc
    rw [Function.update_self, same]
  · rw [Function.update_of_ne hdc]

theorem Ordered.enter {t : Tickets C W R} (h : t.Ordered) {c : C} {snapshot : W}
    (turn : t.holder c = .waiting (t.lastFinished + 1) snapshot) :
    Ordered { t with
      holder := Function.update t.holder c (.writing (t.lastFinished + 1) snapshot) } := by
  have hrev := @revision_update C W R _ t c (.writing (t.lastFinished + 1) snapshot) (by rw [turn]; rfl)
  refine ⟨h.counted, h.finished, fun d r hd => h.pending d r (hrev d ▸ hd),
    fun d e r hd he => h.unique d e r (hrev d ▸ hd) (hrev e ▸ he), fun r hlow hhigh => ?_,
    fun d r w hd hw => ?_, fun d hd => ?_, ?_, h.numbered, h.faithful⟩
  · obtain ⟨d, hd⟩ := h.held r hlow hhigh
    exact ⟨d, (hrev d).trans hd⟩
  · dsimp only at hd hw
    by_cases hdc : d = c
    · subst hdc
      rw [Function.update_self] at hd hw
      exact h.captured d r w (by rw [turn]; exact hd) (by rw [turn]; exact hw)
    · rw [Function.update_of_ne hdc] at hd hw
      exact h.captured d r w hd hw
  · refine (hrev d).trans ?_
    dsimp only at hd
    by_cases hdc : d = c
    · subst hdc
      rw [turn]
      rfl
    · rw [Function.update_of_ne hdc] at hd
      exact h.turn d hd
  · rcases h.written with ⟨hlen, hnone⟩ | ⟨hlen, d, hd⟩
    · refine Or.inl ⟨hlen, fun d r => ?_⟩
      by_cases hdc : d = c
      · subst hdc
        simp
      · simp only [Function.update_of_ne hdc]
        exact hnone d r
    · have hdc : d ≠ c := by
        rintro rfl
        rw [turn] at hd
        cases hd
      exact Or.inr ⟨hlen, d, by simp only [Function.update_of_ne hdc]; exact hd⟩

theorem Ordered.write {t : Tickets C W R} (h : t.Ordered) {c : C} {r : ℕ} {snapshot : W}
    (inside : t.holder c = .writing r snapshot) (row : R) (ok : Bool) :
    r = t.lastFinished + 1 ∧ t.writes.length = t.lastFinished ∧
      Ordered { t with
        holder := Function.update t.holder c (.finishing r)
        writes := t.writes ++ [⟨r, snapshot, row, ok⟩] } := by
  have hturn := h.turn c (by rw [inside]; rfl)
  rw [inside] at hturn
  obtain rfl : r = t.lastFinished + 1 := Option.some_inj.mp hturn
  have hlen : t.writes.length = t.lastFinished := by
    rcases h.written with ⟨hlen, -⟩ | ⟨-, d, hd⟩
    · exact hlen
    · have hdc : d = c := h.inWriter_unique (by rw [hd]; rfl) (by rw [inside]; rfl)
      subst hdc
      rw [inside] at hd
      cases hd
  have hrev := @revision_update C W R _ t c (.finishing (t.lastFinished + 1)) (by rw [inside]; rfl)
  have hrevision : (t.holder c).revision = some (t.lastFinished + 1) := by rw [inside]; rfl
  refine ⟨rfl, hlen, h.counted, h.finished, fun d r hd => h.pending d r (hrev d ▸ hd),
    fun d e r hd he => h.unique d e r (hrev d ▸ hd) (hrev e ▸ he), fun r hlow hhigh => ?_,
    fun d r w hd hw => ?_, fun d hd => ?_, Or.inr ⟨?_, c, ?_⟩, ?_, fun w hw => ?_⟩
  · obtain ⟨d, hd⟩ := h.held r hlow hhigh
    exact ⟨d, (hrev d).trans hd⟩
  · dsimp only at hd hw
    by_cases hdc : d = c
    · subst hdc
      rw [Function.update_self] at hw
      cases hw
    · rw [Function.update_of_ne hdc] at hd hw
      exact h.captured d r w hd hw
  · refine (hrev d).trans ?_
    dsimp only at hd
    by_cases hdc : d = c
    · rw [hdc]
      exact hrevision
    · rw [Function.update_of_ne hdc] at hd
      exact h.turn d hd
  · simp [hlen]
  · simp
  · simp [h.numbered, hlen, List.range'_1_concat, Nat.add_comm]
  · rcases List.mem_append.mp hw with hw | hw
    · exact h.faithful w hw
    · rw [List.mem_singleton.mp hw]
      exact h.captured c _ snapshot hrevision (by rw [inside]; rfl)

theorem Ordered.finish {t : Tickets C W R} (h : t.Ordered) {c : C} {r : ℕ}
    (done : t.holder c = .finishing r) :
    Ordered { t with
      lastFinished := r
      holder := Function.update t.holder c .idle } := by
  have hturn := h.turn c (by rw [done]; rfl)
  have hrevision := hturn
  rw [done] at hturn
  obtain rfl : r = t.lastFinished + 1 := Option.some_inj.mp hturn
  have hlen : t.writes.length = t.lastFinished + 1 := by
    rcases h.written with ⟨-, hnone⟩ | ⟨hlen, -⟩
    · exact absurd done (hnone c _)
    · exact hlen
  have hmove : ∀ d r, (Function.update t.holder c .idle d).revision = some r →
      d ≠ c ∧ (t.holder d).revision = some r := by
    intro d r hd
    by_cases hdc : d = c
    · subst hdc
      rw [Function.update_self] at hd
      cases hd
    · rw [Function.update_of_ne hdc] at hd
      exact ⟨hdc, hd⟩
  have hlater : ∀ d r, d ≠ c → (t.holder d).revision = some r → t.lastFinished + 1 < r := by
    intro d r hdc hd
    have hp := h.pending d r hd
    refine lt_of_le_of_ne hp.1 fun heq => hdc (h.unique d c r hd ?_)
    rw [← heq]
    exact hrevision
  have houtside : ∀ d, d ≠ c → (t.holder d).inWriter = false := by
    intro d hdc
    by_contra hin
    exact hdc (h.inWriter_unique (by simpa using hin) (by rw [done]; rfl))
  have hle := (h.pending c _ hrevision).2
  refine ⟨h.counted, hle, fun d r hd => ?_, fun d e r hd he => ?_, fun r hlow hhigh => ?_,
    fun d r w hd hw => ?_, fun d hd => ?_, Or.inl ⟨hlen, fun d r hd => ?_⟩, h.numbered,
    h.faithful⟩
  · obtain ⟨hdc, hold⟩ := hmove d r hd
    exact ⟨hlater d r hdc hold, (h.pending d r hold).2⟩
  · exact h.unique d e r (hmove d r hd).2 (hmove e r he).2
  · obtain ⟨d, hd⟩ := h.held r (by dsimp only at hlow; omega) hhigh
    have hdc : d ≠ c := by
      rintro rfl
      rw [hrevision, Option.some_inj] at hd
      dsimp only at hlow
      omega
    refine ⟨d, ?_⟩
    dsimp only
    rw [Function.update_of_ne hdc]
    exact hd
  · obtain ⟨hdc, hold⟩ := hmove d r hd
    dsimp only at hw
    rw [Function.update_of_ne hdc] at hw
    exact h.captured d r w hold hw
  · dsimp only at hd
    by_cases hdc : d = c
    · subst hdc
      simp [Ticket.inWriter] at hd
    · rw [Function.update_of_ne hdc, houtside d hdc] at hd
      cases hd
  · dsimp only at hd
    by_cases hdc : d = c
    · subst hdc
      simp at hd
    · rw [Function.update_of_ne hdc] at hd
      have hin := houtside d hdc
      rw [hd] at hin
      cases hin

theorem Ordered.preserved {t t' : Tickets C W R} {a : Action C W R} (h : t.Ordered)
    (taken : t.step a = some t') : t'.Ordered := by
  cases a with
  | reserve c snapshot =>
    simp only [step] at taken
    split at taken
    · cases taken
      exact h.reserve (by assumption) snapshot
    · cases taken
  | enter c =>
    simp only [step] at taken
    split at taken
    · rename_i r snapshot hc
      split_ifs at taken with hr
      cases taken
      subst hr
      exact h.enter hc
    · cases taken
  | write c row ok =>
    simp only [step] at taken
    split at taken
    · cases taken
      exact (h.write (by assumption) row ok).2.2
    · cases taken
  | finish c =>
    simp only [step] at taken
    split at taken
    · cases taken
      exact h.finish (by assumption)
    · cases taken

/-- Every reserved revision has been written exactly once when nobody holds a ticket. -/
theorem Ordered.quiescent {t : Tickets C W R} (h : t.Ordered) (quiet : ∀ c, t.holder c = .idle) :
    t.writes.length = t.lastReserved := by
  have hall : t.lastFinished = t.lastReserved := by
    by_contra hne
    have hfin := h.finished
    obtain ⟨c, hc⟩ := h.held (t.lastFinished + 1) (by omega) (by omega)
    rw [quiet c] at hc
    cases hc
  rcases h.written with ⟨hlen, -⟩ | ⟨-, c, hc⟩
  · exact hlen.trans hall
  · rw [quiet c] at hc
    cases hc

/-- As long as somebody holds a ticket, the one whose turn it is can go on: into the writer, out
of the store with either outcome, or to the release of the next ticket. -/
theorem Ordered.progress {t : Tickets C W R} (h : t.Ordered) {d : C} (busy : t.holder d ≠ .idle) :
    ∃ c, t.holder c ≠ .idle ∧
      ((t.step (.enter c)).isSome = true ∨ (∀ row ok, (t.step (.write c row ok)).isSome = true) ∨
        (t.step (.finish c)).isSome = true) := by
  obtain ⟨r, hr⟩ : ∃ r, (t.holder d).revision = some r := by
    cases hd : t.holder d with
    | idle => exact absurd hd busy
    | waiting r _ => exact ⟨r, rfl⟩
    | writing r _ => exact ⟨r, rfl⟩
    | finishing r => exact ⟨r, rfl⟩
  have hp := h.pending d r hr
  obtain ⟨c, hc⟩ := h.held (t.lastFinished + 1) (by omega) (by omega)
  refine ⟨c, ?_⟩
  cases hholder : t.holder c with
  | idle =>
    rw [hholder] at hc
    cases hc
  | waiting r' snapshot =>
    rw [hholder] at hc
    obtain rfl : r' = t.lastFinished + 1 := Option.some_inj.mp hc
    exact ⟨by simp, Or.inl (by simp [step, hholder])⟩
  | writing r' snapshot => exact ⟨by simp, Or.inr (Or.inl fun row ok => by simp [step, hholder])⟩
  | finishing r' => exact ⟨by simp, Or.inr (Or.inr (by simp [step, hholder]))⟩

def Action.reserves : Action C W R → Bool
  | .reserve .. => true
  | .enter _ | .write .. | .finish _ => false

/-- Without new reservations only finitely many steps are left, whichever writes fail. -/
theorem remaining_step [Fintype C] {t t' : Tickets C W R} {a : Action C W R}
    (inflight : a.reserves = false) (taken : t.step a = some t') :
    load Ticket.remaining t'.holder + 1 = load Ticket.remaining t.holder := by
  cases a with
  | reserve c snapshot => cases inflight
  | enter c =>
    simp only [step] at taken
    split at taken
    · rename_i r snapshot hc
      split_ifs at taken
      cases taken
      have hload := load_update Ticket.remaining t.holder c (.writing r snapshot)
      rw [hc, Ticket.remaining, Ticket.remaining] at hload
      dsimp only
      omega
    · cases taken
  | write c row ok =>
    simp only [step] at taken
    split at taken
    · rename_i r snapshot hc
      cases taken
      have hload := load_update Ticket.remaining t.holder c (.finishing r)
      rw [hc, Ticket.remaining, Ticket.remaining] at hload
      dsimp only
      omega
    · cases taken
  | finish c =>
    simp only [step] at taken
    split at taken
    · rename_i r hc
      cases taken
      have hload := load_update Ticket.remaining t.holder c .idle
      rw [hc, Ticket.remaining, Ticket.remaining] at hload
      dsimp only
      omega
    · cases taken

theorem Ordered.length_writes {t : Tickets C W R} (h : t.Ordered) :
    t.writes.length ≤ t.lastReserved := by
  rcases h.written with ⟨hlen, -⟩ | ⟨hlen, c, hc⟩
  · rw [hlen]
    exact h.finished
  · rw [hlen]
    exact (h.pending c _ (by rw [hc]; rfl)).2

end Tickets
end UniversityHelper
