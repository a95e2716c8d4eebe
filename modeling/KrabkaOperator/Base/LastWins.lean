-- SUMMARY: The entries that are left when a later entry of a list replaces the earlier ones of its key, and the ordered map of the list.
import Mathlib.Data.List.Pairwise
import Mathlib.Data.List.Perm.Basic
import Std.Data.ExtTreeMap

/-!
# The last entry wins

A map that is filled from a list has, for each key, the last entry of that key. Which
entries these are is a matter of lists.
-/

namespace LastWins

/-! ## Lists -/

section Lists

variable {ι κ : Type} [DecidableEq κ] (key : ι → κ)

/-- The last entry of each key. -/
def latest (xs : List ι) : List ι := xs.pwFilter fun a b => key a ≠ key b

@[simp] theorem latest_nil : latest key [] = [] := rfl

variable {key} {x a : ι} {xs : List ι}

theorem forall_mem_latest : (∀ b ∈ latest key xs, key x ≠ key b) ↔ ∀ b ∈ xs, key x ≠ key b := by
  refine List.forall_mem_pwFilter (R := fun a b => key a ≠ key b) (fun {a b c} hac => ?_) x xs
  by_cases hab : key a = key b
  · exact .inr fun hbc => hac (hab.trans hbc)
  · exact .inl hab

theorem latest_cons_of_fresh (h : ∀ b ∈ xs, key x ≠ key b) :
    latest key (x :: xs) = x :: latest key xs :=
  List.pwFilter_cons_of_pos (forall_mem_latest.mpr h)

theorem latest_cons_of_taken (h : ¬ ∀ b ∈ xs, key x ≠ key b) :
    latest key (x :: xs) = latest key xs :=
  List.pwFilter_cons_of_neg fun h' => h (forall_mem_latest.mp h')

theorem mem_latest_cons :
    a ∈ latest key (x :: xs) ↔ (a = x ∧ ∀ b ∈ xs, key x ≠ key b) ∨ a ∈ latest key xs := by
  by_cases h : ∀ b ∈ xs, key x ≠ key b
  · rw [latest_cons_of_fresh h, List.mem_cons, and_iff_left h]
  · rw [latest_cons_of_taken h]
    exact ⟨.inr, fun hor => hor.elim (fun hx => absurd hx.2 h) id⟩

theorem latest_sublist : (latest key xs).Sublist xs := List.pwFilter_sublist xs

theorem latest_pairwise : (latest key xs).Pairwise fun a b => key a ≠ key b :=
  List.pairwise_pwFilter xs

theorem latest_map {η : Type} (f : η → ι) (ys : List η) :
    latest key (ys.map f) = (latest (key ∘ f) ys).map f :=
  List.pwFilter_map f ys

/-- Each key has a last entry. -/
theorem exists_mem_latest (hx : x ∈ xs) : ∃ a ∈ latest key xs, key a = key x := by
  by_contra hnot
  push Not at hnot
  exact forall_mem_latest.mp (fun b hb heq => hnot b hb heq.symm) x hx rfl

variable {p : ι → Bool}

/-- All entries with `p` are left exactly if none of them is replaced. -/
theorem filter_latest_eq_iff :
    (latest key xs).filter p = xs.filter p ↔ xs.Pairwise fun a b => p a → key a ≠ key b := by
  induction xs with
  | nil => simp
  | cons x xs ih =>
    have hle : ((latest key xs).filter p).length ≤ (xs.filter p).length :=
      (latest_sublist.filter p).length_le
    rw [List.pairwise_cons, ← ih]
    by_cases hp : p x
    · by_cases hfresh : ∀ b ∈ xs, key x ≠ key b
      · rw [latest_cons_of_fresh hfresh, List.filter_cons_of_pos hp, List.filter_cons_of_pos hp,
          List.cons_inj_right]
        exact ⟨fun h => ⟨fun b hb _ => hfresh b hb, h⟩, And.right⟩
      · rw [latest_cons_of_taken hfresh, List.filter_cons_of_pos hp]
        constructor
        · intro h
          have hlen := congrArg List.length h
          rw [List.length_cons] at hlen
          omega
        · rintro ⟨hall, -⟩
          exact absurd (fun b hb => hall b hb hp) hfresh
    · have hsame : (latest key (x :: xs)).filter p = (latest key xs).filter p := by
        by_cases hfresh : ∀ b ∈ xs, key x ≠ key b
        · rw [latest_cons_of_fresh hfresh, List.filter_cons_of_neg hp]
        · rw [latest_cons_of_taken hfresh]
      rw [hsame, List.filter_cons_of_neg hp]
      exact ⟨fun h => ⟨fun b _ hpx => absurd hpx hp, h⟩, And.right⟩

/-- The same for what is read off the entries, in any order. -/
theorem map_filter_latest_perm_iff {β : Type} {f : ι → β} :
    (((latest key xs).filter p).map f).Perm ((xs.filter p).map f) ↔
      xs.Pairwise fun a b => p a → key a ≠ key b := by
  rw [← filter_latest_eq_iff]
  constructor
  · intro h
    have hlen : ((latest key xs).filter p).length = (xs.filter p).length := by
      simpa using h.length_eq
    exact (latest_sublist.filter p).eq_of_length hlen
  · intro h
    rw [h]

end Lists

/-! ## Maps -/

section Maps

variable {α β : Type} [DecidableEq α] {cmp : α → α → Ordering} [Std.TransCmp cmp]
  [Std.LawfulEqCmp cmp] {entries : List (α × β)} {k : α} {v : β}

/-- The map of a list of entries. -/
def ofList (cmp : α → α → Ordering) [Std.TransCmp cmp] (entries : List (α × β)) :
    Std.ExtTreeMap α β cmp :=
  entries.foldl (fun m e => m.insert e.1 e.2) ∅

theorem getElem?_foldl_insert {m : Std.ExtTreeMap α β cmp} :
    (entries.foldl (fun m e => m.insert e.1 e.2) m)[k]? = some v ↔
      (k, v) ∈ latest Prod.fst entries ∨ (∀ e ∈ entries, e.1 ≠ k) ∧ m[k]? = some v := by
  induction entries generalizing m with
  | nil => simp
  | cons e es ih =>
    rw [List.foldl_cons, ih, mem_latest_cons, Std.ExtTreeMap.getElem?_insert, List.forall_mem_cons]
    by_cases hk : e.1 = k
    · subst hk
      simp only [Std.ReflCmp.compare_self, if_true, Option.some_inj, ne_eq, not_true_eq_false,
        false_and, or_false, Prod.ext_iff, true_and]
      rw [or_comm, and_comm, eq_comm (a := v)]
      exact or_congr_left (and_congr_right fun _ => forall₂_congr fun b _ => not_congr eq_comm)
    · have hcmp : cmp e.1 k ≠ .eq := fun h => hk (Std.LawfulEqCmp.compare_eq_iff_eq.mp h)
      have hpair : (k, v) ≠ e := fun h => hk (congrArg Prod.fst h).symm
      simp only [if_neg hcmp, hpair, false_and, false_or, ne_eq, hk, not_false_eq_true, true_and]

theorem getElem?_ofList : (ofList cmp entries)[k]? = some v ↔ (k, v) ∈ latest Prod.fst entries := by
  rw [ofList, getElem?_foldl_insert]
  simp

/-- The entries of the map, up to order. -/
theorem toList_ofList_perm : (ofList cmp entries).toList.Perm (latest Prod.fst entries) := by
  have hmap : (ofList cmp entries).toList.Nodup :=
    Std.ExtTreeMap.distinct_keys_toList.imp fun {a b} h heq => by
      subst heq
      exact h Std.ReflCmp.compare_self
  have hlist : (latest Prod.fst entries).Nodup :=
    latest_pairwise.imp fun h heq => h (congrArg Prod.fst heq)
  refine (List.perm_ext_iff_of_nodup hmap hlist).mpr fun e => ?_
  obtain ⟨k, v⟩ := e
  rw [Std.ExtTreeMap.mem_toList_iff_getElem?_eq_some, getElem?_ofList]

end Maps

end LastWins
