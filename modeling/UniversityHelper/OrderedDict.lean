import Mathlib

/-! Insertion-ordered dictionaries, as Python's `dict` and `OrderedDict`: an association
list whose keys are pairwise distinct. -/
namespace UniversityHelper

structure OrderedDict (κ ν : Type*) where
  entries : List (κ × ν)
  distinct : (entries.map Prod.fst).Nodup

namespace OrderedDict
variable {κ ν : Type*} [DecidableEq κ]

def empty : OrderedDict κ ν := ⟨[], List.nodup_nil⟩

def keys (d : OrderedDict κ ν) : List κ := d.entries.map Prod.fst
def values (d : OrderedDict κ ν) : List ν := d.entries.map Prod.snd
def size (d : OrderedDict κ ν) : ℕ := d.entries.length

def get (d : OrderedDict κ ν) (k : κ) : Option ν := d.entries.lookup k

omit [DecidableEq κ] in
private theorem nodup_filter {es : List (κ × ν)} (h : (es.map Prod.fst).Nodup)
    (p : κ × ν → Bool) : ((es.filter p).map Prod.fst).Nodup :=
  h.sublist (List.filter_sublist.map Prod.fst)

/-- Keep the entries that satisfy `p`, in their order. -/
def filter (d : OrderedDict κ ν) (p : κ × ν → Bool) : OrderedDict κ ν :=
  ⟨d.entries.filter p, nodup_filter d.distinct p⟩

/-- `del d[k]` where the key is present, `d.pop(k, None)` in general. -/
def erase (d : OrderedDict κ ν) (k : κ) : OrderedDict κ ν := d.filter fun e => e.1 ≠ k

private theorem map_fst_update (es : List (κ × ν)) (k : κ) (f : ν → ν) :
    (es.map fun e => if e.1 = k then (e.1, f e.2) else e).map Prod.fst = es.map Prod.fst := by
  rw [List.map_map]
  apply List.map_congr_left
  intro e _
  by_cases h : e.1 = k <;> simp [h]

/-- Change the value at `k` in place. -/
def modify (d : OrderedDict κ ν) (k : κ) (f : ν → ν) : OrderedDict κ ν :=
  ⟨d.entries.map fun e => if e.1 = k then (e.1, f e.2) else e, by
    rw [map_fst_update]; exact d.distinct⟩

omit [DecidableEq κ] in
private theorem map_fst_mapValues (es : List (κ × ν)) (f : ν → ν) :
    (es.map fun e => (e.1, f e.2)).map Prod.fst = es.map Prod.fst := by
  rw [List.map_map]
  rfl

/-- Change every value in place. -/
def mapValues (d : OrderedDict κ ν) (f : ν → ν) : OrderedDict κ ν :=
  ⟨d.entries.map fun e => (e.1, f e.2), by rw [map_fst_mapValues]; exact d.distinct⟩

omit [DecidableEq κ] in
private theorem nodup_append {es : List (κ × ν)} {k : κ} (v : ν) (h : (es.map Prod.fst).Nodup)
    (hk : k ∉ es.map Prod.fst) : ((es ++ [(k, v)]).map Prod.fst).Nodup := by
  simp only [List.map_append, List.map_cons, List.map_nil]
  refine List.Nodup.append h (List.nodup_singleton k) ?_
  simpa using hk

/-- `d[k] = v`: in place for a known key, at the end for a new one. -/
def set (d : OrderedDict κ ν) (k : κ) (v : ν) : OrderedDict κ ν :=
  if h : k ∈ d.entries.map Prod.fst then d.modify k fun _ => v
  else ⟨d.entries ++ [(k, v)], nodup_append v d.distinct h⟩

/-- `d.update(es)`, from a list of entries. -/
def update (d : OrderedDict κ ν) (es : List (κ × ν)) : OrderedDict κ ν :=
  es.foldl (fun d e => d.set e.1 e.2) d

/-- `d.move_to_end(k)`. -/
def moveToEnd (d : OrderedDict κ ν) (k : κ) : OrderedDict κ ν :=
  match d.get k with
  | none => d
  | some v => (d.erase k).set k v

/-- Distinct keys make the entry list a functional relation. -/
theorem get_eq_some {d : OrderedDict κ ν} {k : κ} {v : ν} :
    d.get k = some v ↔ (k, v) ∈ d.entries := by
  obtain ⟨es, hes⟩ := d
  simp only [get]
  induction es with
  | nil => simp
  | cons e es ih =>
    obtain ⟨j, w⟩ := e
    obtain ⟨hj, hrest⟩ := List.nodup_cons.mp hes
    by_cases hkj : k = j
    · subst hkj
      have hv : (k, v) ∉ es := fun hm => hj (List.mem_map.mpr ⟨_, hm, rfl⟩)
      simp [hv, eq_comm]
    · have hne : (k == j) = false := by simpa using hkj
      simp [List.lookup_cons, hne, ih hrest, hkj]

theorem get_eq_none {d : OrderedDict κ ν} {k : κ} : d.get k = none ↔ k ∉ d.keys := by
  constructor
  · intro h hk
    obtain ⟨⟨j, v⟩, hm, rfl⟩ := List.mem_map.mp hk
    rw [get_eq_some.mpr hm] at h
    cases h
  · intro h
    cases hg : d.get k with
    | none => rfl
    | some v => exact absurd (List.mem_map_of_mem (f := Prod.fst) (get_eq_some.mp hg)) h

@[simp] theorem get_empty (k : κ) : (empty : OrderedDict κ ν).get k = none := rfl

@[simp] theorem get_filter (d : OrderedDict κ ν) (p : κ × ν → Bool) (k : κ) :
    (d.filter p).get k = (d.get k).filter fun v => p (k, v) := by
  apply Option.ext
  intro v
  simp only [get_eq_some, filter, List.mem_filter, Option.filter_eq_some_iff]

@[simp] theorem get_erase (d : OrderedDict κ ν) (k j : κ) :
    (d.erase k).get j = if j = k then none else d.get j := by
  rw [erase, get_filter]
  by_cases h : j = k
  · simp [h]
  · cases d.get j <;> simp [h]

@[simp] theorem get_modify (d : OrderedDict κ ν) (k j : κ) (f : ν → ν) :
    (d.modify k f).get j = if j = k then (d.get j).map f else d.get j := by
  apply Option.ext
  intro v
  rw [get_eq_some]
  simp only [modify, List.mem_map, Prod.exists]
  by_cases h : j = k
  · subst h
    simp only [if_true, Option.map_eq_some_iff, get_eq_some]
    constructor
    · rintro ⟨i, w, hm, he⟩
      by_cases hi : i = j
      · subst hi
        simp only [if_true, Prod.mk.injEq, true_and] at he
        exact ⟨w, hm, he⟩
      · simp only [hi, if_false, Prod.mk.injEq] at he
        exact absurd he.1 (by simp)
    · rintro ⟨w, hm, rfl⟩
      exact ⟨j, w, hm, by simp⟩
  · rw [if_neg h, get_eq_some]
    constructor
    · rintro ⟨i, w, hm, he⟩
      by_cases hi : i = k
      · subst hi
        simp only [if_true, Prod.mk.injEq] at he
        exact absurd he.1.symm h
      · simp only [hi, if_false, Prod.mk.injEq] at he
        obtain ⟨rfl, rfl⟩ := he
        exact hm
    · intro hm
      exact ⟨j, v, hm, by simp [h]⟩

@[simp] theorem get_mapValues (d : OrderedDict κ ν) (f : ν → ν) (k : κ) :
    (d.mapValues f).get k = (d.get k).map f := by
  apply Option.ext
  intro v
  rw [get_eq_some]
  simp only [mapValues, List.mem_map, Prod.exists, Prod.mk.injEq, Option.map_eq_some_iff,
    get_eq_some]
  constructor
  · rintro ⟨j, w, hm, rfl, rfl⟩
    exact ⟨w, hm, rfl⟩
  · rintro ⟨w, hm, rfl⟩
    exact ⟨k, w, hm, rfl, rfl⟩

@[simp] theorem get_set (d : OrderedDict κ ν) (k j : κ) (v : ν) :
    (d.set k v).get j = if j = k then some v else d.get j := by
  by_cases hk : k ∈ d.entries.map Prod.fst
  · obtain ⟨⟨i, w⟩, hm, rfl⟩ := List.mem_map.mp hk
    by_cases hj : j = i
    · subst hj
      simp [set, hk, get_eq_some.mpr hm]
    · simp [set, hk, hj]
  · by_cases hj : j = k
    · subst hj
      rw [if_pos rfl]
      exact get_eq_some.mpr (by simp [set, hk])
    · rw [if_neg hj]
      apply Option.ext
      intro w
      rw [get_eq_some, get_eq_some]
      simp [set, hk, hj]

/-- The last entry for a key wins. -/
theorem get_update (d : OrderedDict κ ν) (es : List (κ × ν)) (k : κ) :
    (d.update es).get k = (es.reverse.lookup k).or (d.get k) := by
  induction es generalizing d with
  | nil => rfl
  | cons e es ih =>
    have hupdate : d.update (e :: es) = (d.set e.1 e.2).update es := rfl
    rw [hupdate, ih, get_set, List.reverse_cons, List.lookup_append, Option.or_assoc]
    congr 1
    by_cases hk : k = e.1
    · simp [hk, List.lookup]
    · have hne : (k == e.1) = false := by simpa using hk
      simp [hk, List.lookup, hne]

@[simp] theorem get_moveToEnd (d : OrderedDict κ ν) (k j : κ) :
    (d.moveToEnd k).get j = d.get j := by
  unfold moveToEnd
  cases hk : d.get k with
  | none => rfl
  | some v =>
    simp only [get_set, get_erase]
    by_cases h : j = k
    · simp [h, hk]
    · simp [h]

theorem mem_keys {d : OrderedDict κ ν} {k : κ} : k ∈ d.keys ↔ ∃ v, d.get k = some v := by
  rw [← Option.ne_none_iff_exists', ne_eq, get_eq_none, not_not]

theorem mem_values {d : OrderedDict κ ν} {v : ν} : v ∈ d.values ↔ ∃ k, d.get k = some v := by
  simp [values, get_eq_some]

@[simp] theorem size_modify (d : OrderedDict κ ν) (k : κ) (f : ν → ν) :
    (d.modify k f).size = d.size := by
  simp [size, modify]

theorem keys_set_of_known {d : OrderedDict κ ν} {k : κ} {w : ν} (h : d.get k = some w) (v : ν) :
    (d.set k v).keys = d.keys := by
  have hk : k ∈ d.entries.map Prod.fst := mem_keys.mpr ⟨w, h⟩
  rw [set, dif_pos hk, keys, keys, modify, List.map_map]
  apply List.map_congr_left
  intro e _
  by_cases he : e.1 = k <;> simp [he]

/-- The order of the keys and the values at them make up a dictionary. -/
theorem ext_get {d d' : OrderedDict κ ν} (hkeys : d.keys = d'.keys)
    (hget : ∀ k, d.get k = d'.get k) : d = d' := by
  obtain ⟨es, hes⟩ := d
  obtain ⟨es', hes'⟩ := d'
  simp only [mk.injEq]
  have hlength : es.length = es'.length := by simpa [keys] using congrArg List.length hkeys
  apply List.ext_getElem hlength
  intro i hi hi'
  have hfst : es[i].1 = es'[i].1 := by
    have hmap := List.getElem_of_eq hkeys (show i < (es.map Prod.fst).length by simpa using hi)
    simpa [keys] using hmap
  have hthere : OrderedDict.get ⟨es, hes⟩ es[i].1 = some es[i].2 :=
    get_eq_some.mpr (List.getElem_mem hi)
  have hthere' : OrderedDict.get ⟨es', hes'⟩ es'[i].1 = some es'[i].2 :=
    get_eq_some.mpr (List.getElem_mem hi')
  rw [hget, hfst, hthere'] at hthere
  exact Prod.ext hfst (Option.some.inj hthere).symm

theorem entries_set_of_new {d : OrderedDict κ ν} {k : κ} (h : d.get k = none) (v : ν) :
    (d.set k v).entries = d.entries ++ [(k, v)] := by
  have hk : k ∉ d.entries.map Prod.fst := get_eq_none.mp h
  simp [set, hk]

omit [DecidableEq κ] in
theorem filter_eq_self {d : OrderedDict κ ν} {p : κ × ν → Bool} (h : ∀ e ∈ d.entries, p e = true) :
    d.filter p = d := by
  obtain ⟨es, hes⟩ := d
  simp only [filter, mk.injEq]
  exact List.filter_eq_self.mpr h

theorem size_set_of_new {d : OrderedDict κ ν} {k : κ} (h : d.get k = none) (v : ν) :
    (d.set k v).size = d.size + 1 := by
  simp [size, entries_set_of_new h]

theorem size_erase_of_known {d : OrderedDict κ ν} {k : κ} {v : ν} (h : d.get k = some v) :
    (d.erase k).size + 1 = d.size := by
  have hm : k ∈ d.keys := mem_keys.mpr ⟨v, h⟩
  have hone := List.count_eq_one_of_mem d.distinct hm
  have hcount : d.entries.countP (fun e => decide (e.1 = k)) = 1 := by
    rw [← hone, List.count, List.countP_map]
    congr 1
  have hsplit := List.length_eq_countP_add_countP (fun e : κ × ν => decide (e.1 = k)) (l := d.entries)
  simp only [size, erase, filter, ← List.countP_eq_length_filter, ne_eq, decide_not]
  simp only [decide_eq_true_eq, decide_not] at hsplit
  omega

theorem size_moveToEnd (d : OrderedDict κ ν) (k : κ) : (d.moveToEnd k).size = d.size := by
  unfold moveToEnd
  cases hk : d.get k with
  | none => rfl
  | some v =>
    rw [size_set_of_new (by simp), size_erase_of_known hk]

end OrderedDict
end UniversityHelper
