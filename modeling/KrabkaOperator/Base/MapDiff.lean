-- SUMMARY: Differences of two ordered maps as a list of changes: they lead from the one map to the other, with one change for each key that differs.
import Std.Data.ExtTreeMap.Lemmas
import Mathlib.Tactic.Common
import Mathlib.Data.List.Nodup

/-!
# Differences of maps

A change gives a key a value or takes its value away. The difference sets what the desired map has
and removes what it has not.
-/

namespace MapDiff

open Std

variable {α β : Type} {cmp : α → α → Ordering} [TransCmp cmp]

/-- A key with its new value, or with none. -/
abbrev Change (α β : Type) := α × Option β

def change (m : ExtTreeMap α β cmp) (c : Change α β) : ExtTreeMap α β cmp :=
  match c.2 with
  | some value => m.insert c.1 value
  | none => m.erase c.1

def diff [DecidableEq β] (current desired : ExtTreeMap α β cmp) : List (Change α β) :=
  (desired.toList.filter fun e => current[e.1]? ≠ some e.2).map (fun e => (e.1, some e.2)) ++
    (current.keys.filter fun k => !desired.contains k).map fun k => (k, none)

/-! ## Changes -/

variable [LawfulEqCmp cmp]

section Changes

variable [DecidableEq α]

theorem getElem?_change (m : ExtTreeMap α β cmp) (c : Change α β) (k : α) :
    (change m c)[k]? = if c.1 = k then c.2 else m[k]? := by
  obtain ⟨key, value⟩ := c
  cases value with
  | some value =>
    rw [change, ExtTreeMap.getElem?_insert]
    simp only [LawfulEqCmp.compare_eq_iff_eq]
  | none =>
    rw [change, ExtTreeMap.getElem?_erase]
    simp only [LawfulEqCmp.compare_eq_iff_eq]

/-- Changes that agree about a key. -/
theorem getElem?_foldl_change {cs : List (Change α β)} {m : ExtTreeMap α β cmp} {k : α}
    {r : Option β} (hagree : ∀ c ∈ cs, c.1 = k → c.2 = r) :
    (cs.foldl change m)[k]? = if ∃ c ∈ cs, c.1 = k then r else m[k]? := by
  induction cs generalizing m with
  | nil => simp
  | cons c cs ih =>
    rw [List.foldl_cons, ih fun c' h => hagree c' (List.mem_cons_of_mem _ h), getElem?_change]
    by_cases hkey : c.1 = k
    · have hvalue := hagree c List.mem_cons_self hkey
      simp only [hkey, if_true, hvalue, ite_self, List.mem_cons, exists_eq_or_imp, true_or]
    · simp only [hkey, if_false, List.mem_cons, exists_eq_or_imp, false_or]

end Changes

/-! ## The difference -/

variable [DecidableEq β]

/-- A key is changed, to what the desired map has, exactly when the maps differ about it. -/
theorem mem_diff {current desired : ExtTreeMap α β cmp} {c : Change α β} :
    c ∈ diff current desired ↔ c.2 = desired[c.1]? ∧ current[c.1]? ≠ desired[c.1]? := by
  obtain ⟨key, value⟩ := c
  simp only [diff, List.mem_append, List.mem_map, List.mem_filter, decide_eq_true_eq,
    Bool.not_eq_true', Prod.mk.injEq, Prod.exists, ExtTreeMap.mem_toList_iff_getElem?_eq_some,
    ExtTreeMap.mem_keys, ExtTreeMap.contains_eq_isSome_getElem?, Option.isSome_eq_false_iff,
    Option.isNone_iff_eq_none, ExtTreeMap.mem_iff_isSome_getElem?, Option.isSome_iff_exists]
  constructor
  · rintro (⟨k, v, ⟨hdesired, hne⟩, rfl, rfl⟩ | ⟨k, ⟨⟨v, hcurrent⟩, hdesired⟩, rfl, rfl⟩)
    · rw [hdesired]
      exact ⟨rfl, hne⟩
    · rw [hdesired, hcurrent]
      exact ⟨rfl, nofun⟩
  · rintro ⟨rfl, hne⟩
    cases hdesired : desired[key]? with
    | some v =>
      rw [hdesired] at hne
      exact .inl ⟨key, v, ⟨hdesired, hne⟩, rfl, rfl⟩
    | none =>
      rw [hdesired] at hne
      exact .inr ⟨key, ⟨Option.ne_none_iff_exists'.mp hne, hdesired⟩, rfl, rfl⟩

theorem foldl_diff [DecidableEq α] (current desired : ExtTreeMap α β cmp) :
    (diff current desired).foldl change current = desired := by
  apply ExtTreeMap.ext_getElem?
  intro k
  have hagree : ∀ c ∈ diff current desired, c.1 = k → c.2 = desired[k]? := by
    rintro c hc rfl
    exact (mem_diff.mp hc).1
  rw [getElem?_foldl_change hagree]
  split
  · rfl
  · rename_i hnone
    by_contra hne
    exact hnone ⟨(k, desired[k]?), mem_diff.mpr ⟨rfl, hne⟩, rfl⟩

theorem diff_eq_nil_iff [DecidableEq α] {current desired : ExtTreeMap α β cmp} :
    diff current desired = [] ↔ current = desired := by
  constructor
  · intro hnil
    have happly := foldl_diff current desired
    rwa [hnil, List.foldl_nil] at happly
  · rintro rfl
    apply List.eq_nil_iff_forall_not_mem.mpr
    exact fun c hc => (mem_diff.mp hc).2 rfl

/-- No key is changed twice. -/
theorem nodup_diff (current desired : ExtTreeMap α β cmp) :
    ((diff current desired).map Prod.fst).Nodup := by
  simp only [diff, List.map_append, List.map_map, Function.comp_def, List.map_id']
  refine List.nodup_append.mpr ⟨?_, ExtTreeMap.nodup_keys.filter _, ?_⟩
  · refine List.Nodup.sublist (List.filter_sublist.map Prod.fst) ?_
    rw [ExtTreeMap.map_fst_toList_eq_keys]
    exact ExtTreeMap.nodup_keys
  · rintro k hset _ hremove rfl
    obtain ⟨e, he, rfl⟩ := List.mem_map.mp hset
    have hmem := ExtTreeMap.mem_toList_iff_getElem?_eq_some.mp (List.mem_filter.mp he).1
    have hnot := (List.mem_filter.mp hremove).2
    rw [ExtTreeMap.contains_eq_isSome_getElem?, hmem] at hnot
    cases hnot

end MapDiff
