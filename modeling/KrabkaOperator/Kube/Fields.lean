-- SUMMARY: Maps with field managers: what a server-side apply and a merge patch do to the entries of a Kubernetes object.
import Mathlib.Tactic.Common
import Std.Data.ExtTreeMap

/-!
# Managed fields

The API server records, for each entry of a map such as `data` or
`metadata.annotations`, which field managers set it. A forced server-side apply
sets every entry of its configuration, takes the changed ones over, and drops
the entries that its manager alone had applied before and no longer lists. A
merge patch sets the entries it names and leaves all others as they are.
-/

namespace Kube

/-- The UTF-8 bytes of a text. -/
def bytes (s : String) : List Nat := s.toByteArray.data.toList.map UInt8.toNat

/-- Texts are ordered by their bytes. -/
def compareBytes (a b : String) : Ordering := compare (bytes a) (bytes b)

theorem bytes_injective {a b : String} (h : bytes a = bytes b) : a = b := by
  have hlist : a.toByteArray.data.toList = b.toByteArray.data.toList :=
    (List.map_inj_right fun _ _ => UInt8.toNat_inj.mp).mp h
  exact String.toByteArray_inj.mp (ByteArray.ext (Array.toList_inj.mp hlist))

instance : Std.TransCmp compareBytes where
  eq_swap {a b} := Std.OrientedOrd.eq_swap (a := bytes a) (b := bytes b)
  isLE_trans {a b c} := Std.TransOrd.isLE_trans (a := bytes a) (b := bytes b) (c := bytes c)

instance : Std.LawfulEqCmp compareBytes where
  compare_self {a} := Std.ReflOrd.compare_self (a := bytes a)
  eq_of_compare {a b} h :=
    bytes_injective (Std.LawfulEqOrd.eq_of_compare (a := bytes a) (b := bytes b) h)

/-- An ordered map with text keys. -/
abbrev BTreeMap (β : Type) := Std.ExtTreeMap String β compareBytes

/-- The map of a list of entries; a later entry replaces an earlier one. -/
def BTreeMap.ofList {β : Type} (entries : List (String × β)) : BTreeMap β :=
  entries.foldl (fun m e => m.insert e.1 e.2) ∅

private theorem getElem?_foldl_insert {β : Type} (entries : List (String × β)) (m : BTreeMap β)
    (key : String) : (entries.foldl (fun m e => m.insert e.1 e.2) m)[key]? =
      (entries.reverse.lookup key).or m[key]? := by
  induction entries generalizing m with
  | nil => simp
  | cons e es ih =>
    obtain ⟨name, value⟩ := e
    rw [List.foldl_cons, ih, List.reverse_cons, List.lookup_append, Option.or_assoc,
      Std.ExtTreeMap.getElem?_insert]
    congr 1
    by_cases h : name = key
    · subst h
      simp
    · have hne : (key == name) = false := by simpa using fun h' => h h'.symm
      simp [List.lookup_cons, hne, Std.LawfulEqCmp.compare_eq_iff_eq, h]

theorem BTreeMap.getElem?_ofList {β : Type} (entries : List (String × β)) (key : String) :
    (BTreeMap.ofList entries)[key]? = entries.reverse.lookup key := by
  simp [BTreeMap.ofList, getElem?_foldl_insert]

/-- One entry of a managed map. -/
structure Owned (β : Type) where
  value : β
  managers : List String
  deriving DecidableEq, Repr

abbrev Fields (β : Type) := BTreeMap (Owned β)

namespace Fields

variable {β : Type} [DecidableEq β]

/-- The value under a key. -/
def value? (m : Fields β) (key : String) : Option β := m[key]?.map Owned.value

/-- All values, without their managers. -/
def values (m : Fields β) : BTreeMap β := m.map fun _ o => o.value

/-- An applied entry: its manager owns it, together with the managers that had
    already set the same value. -/
def claim (manager : String) (old : Option (Owned β)) (v : β) : Owned β :=
  match old with
  | some o =>
    if o.value = v then ⟨v, manager :: o.managers.filter (· ≠ manager)⟩ else ⟨v, [manager]⟩
  | none => ⟨v, [manager]⟩

/-- An entry that the manager no longer lists: it goes away with its last manager. -/
def release (manager : String) (o : Owned β) : Option (Owned β) :=
  if manager ∈ o.managers then
    match o.managers.filter (· ≠ manager) with
    | [] => none
    | rest => some ⟨o.value, rest⟩
  else
    some o

/-- Forced server-side apply of `cfg` by `manager`. -/
def apply (manager : String) (cfg : BTreeMap β) (cur : Fields β) : Fields β :=
  (cur.filterMap fun _ o => release manager o) ∪
    (cfg.map fun key v => claim manager cur[key]? v)

/-- A patched entry: an unchanged value keeps its managers. -/
def overwrite (manager : String) (old : Option (Owned β)) (v : β) : Owned β :=
  match old with
  | some o => if o.value = v then o else ⟨v, [manager]⟩
  | none => ⟨v, [manager]⟩

/-- JSON merge patch of the entries of `patch` by `manager`. -/
def merge (manager : String) (patch : BTreeMap β) (cur : Fields β) : Fields β :=
  cur ∪ (patch.map fun key v => overwrite manager cur[key]? v)

/-! ## Values after a patch -/

@[simp] theorem claim_value {manager : String} {old : Option (Owned β)} {v : β} :
    (claim manager old v).value = v := by
  unfold claim
  split
  · split <;> rfl
  · rfl

@[simp] theorem overwrite_value {manager : String} {old : Option (Owned β)} {v : β} :
    (overwrite manager old v).value = v := by
  unfold overwrite
  split
  · split
    · assumption
    · rfl
  · rfl

omit [DecidableEq β] in
theorem release_value {manager : String} {o o' : Owned β} (h : release manager o = some o') :
    o'.value = o.value := by
  unfold release at h
  split at h
  · split at h
    · cases h
    · cases h
      rfl
  · cases h
    rfl

omit [DecidableEq β] in
@[simp] theorem value?_empty {key : String} : value? (∅ : Fields β) key = none := by
  simp [value?]

omit [DecidableEq β] in
@[simp] theorem getElem?_values {m : Fields β} {key : String} : (values m)[key]? = value? m key := by
  simp [values, value?]

/-- An applied entry has the value of the configuration. -/
theorem value?_apply_of_some {manager key : String} {cfg : BTreeMap β} {cur : Fields β} {v : β}
    (h : cfg[key]? = some v) : value? (apply manager cfg cur) key = some v := by
  simp [value?, apply, Std.ExtTreeMap.getElem?_union, h]

/-- An entry that the configuration does not list keeps its value or goes away. -/
theorem value?_apply_of_none {key : String} {cfg : BTreeMap β} (manager : String)
    (cur : Fields β) (h : cfg[key]? = none) :
    value? (apply manager cfg cur) key = value? cur key ∨
      value? (apply manager cfg cur) key = none := by
  simp only [value?, apply, Std.ExtTreeMap.getElem?_union, Std.ExtTreeMap.getElem?_map, h,
    Option.map_none, Option.none_or, Std.ExtTreeMap.getElem?_filterMap']
  cases hc : cur[key]? with
  | none => simp
  | some o =>
    cases hr : release manager o with
    | none => simp [hr]
    | some o' => simp [hr, release_value hr]

/-- `manager` alone has set the entry under a key, if there is one. -/
def OwnedBy (manager key : String) (m : Fields β) : Prop :=
  ∀ o, m[key]? = some o → o.managers = [manager]

/-- Where a manager is alone, its apply leaves exactly what it lists. -/
theorem getElem?_apply_of_ownedBy {manager key : String} {cfg : BTreeMap β} {cur : Fields β}
    (h : OwnedBy manager key cur) :
    (apply manager cfg cur)[key]? = cfg[key]?.map fun v => ⟨v, [manager]⟩ := by
  simp only [apply, Std.ExtTreeMap.getElem?_union, Std.ExtTreeMap.getElem?_map,
    Std.ExtTreeMap.getElem?_filterMap']
  cases hc : cur[key]? with
  | none => cases hcfg : cfg[key]? <;> simp [claim]
  | some o =>
    have ho := h o hc
    cases hcfg : cfg[key]? with
    | none => simp [release, ho]
    | some v => by_cases hv : o.value = v <;> simp [claim, ho, hv]

theorem OwnedBy.apply {manager key : String} {cfg : BTreeMap β} {cur : Fields β}
    (h : OwnedBy manager key cur) : OwnedBy manager key (apply manager cfg cur) := by
  intro o ho
  rw [getElem?_apply_of_ownedBy h, Option.map_eq_some_iff] at ho
  obtain ⟨v, -, rfl⟩ := ho
  rfl

theorem getElem?_merge_of_none {manager key : String} {patch : BTreeMap β} {cur : Fields β}
    (h : patch[key]? = none) : (merge manager patch cur)[key]? = cur[key]? := by
  simp [merge, Std.ExtTreeMap.getElem?_union, h]

theorem merge_empty {manager : String} {cur : Fields β} : merge manager ∅ cur = cur :=
  Std.ExtTreeMap.ext_getElem? fun _ => getElem?_merge_of_none (by simp)

/-- A merge patch sets the values of the patch and no others. -/
theorem value?_merge {manager key : String} {patch : BTreeMap β} {cur : Fields β} :
    value? (merge manager patch cur) key = patch[key]?.or (value? cur key) := by
  simp only [value?, merge, Std.ExtTreeMap.getElem?_union, Std.ExtTreeMap.getElem?_map]
  cases h : patch[key]? with
  | none => simp
  | some v => simp

end Fields

end Kube
