-- SUMMARY: Whether an accepted change of the storage keeps every claim and shrinks none, in exact sizes.
import KrabkaOperator.Kube.ExactQuantity
import KrabkaOperator.NodePool.StorageChange

/-!
# Accepted changes

The claims of a StatefulSet cannot be taken away or shrink. The check of a change compares whole
bytes, takes a size that it cannot read for 0, and tells the kinds of storage apart by the number
of claims. The API server may write a size in another way than the operator did.
-/

namespace NodePool

open Kube Crd

/-! ## Live claims -/

/-- A claim is stored with its name and class, and with a size of the same value. -/
structure StoredAs (rendered live : PersistentVolumeClaim) : Prop where
  name : live.name = rendered.name
  className : (sizeClassFromPvc live).2 = (sizeClassFromPvc rendered).2
  size : ∃ q, exactQuantity (sizeClassFromPvc rendered).1 = some q ∧
    exactQuantity (sizeClassFromPvc live).1 = some q

/-- The claims of a StatefulSet that was created for an accepted pool under the parent. -/
def Created (printable : Char → Bool) (tier : Option TieredStorage)
    (observed : List PersistentVolumeClaim) : Prop :=
  ∃ storage profile pool podLabels, validate (checkStorage printable storage profile) pool = .ok () ∧
    List.Forall₂ StoredAs (renderStorage storage podLabels tier) observed

/-- The claims have the same names, and under each name the same class and no smaller size. -/
structure Kept (rendered observed : List PersistentVolumeClaim) : Prop where
  names : ∀ name, name ∈ rendered.map (·.name) ↔ name ∈ observed.map (·.name)
  sizes : ∀ p ∈ rendered, ∀ live ∈ observed, p.name = live.name →
    (sizeClassFromPvc p).2 = (sizeClassFromPvc live).2 ∧
      ∃ q q', exactQuantity (sizeClassFromPvc live).1 = some q ∧
        exactQuantity (sizeClassFromPvc p).1 = some q' ∧ q ≤ q'

/-- The desired size is a quantity. Where the observed size is not read, or is read as the same
number of whole bytes, it is not larger. -/
def SizeFits (observed desired : String) : Prop :=
  exactQuantity desired ≠ none ∧
  ((∃ why, parseQuantity observed = .error why) ∨ quantityBytes observed = quantityBytes desired →
    ∀ q ∈ exactQuantity observed, ∀ q' ∈ exactQuantity desired, q ≤ q')

/-- One claim is not asked for where the live claims have none for the data, and the sizes of the
claims of one name fit. -/
structure ChangeFits (storage : Option Storage) (rendered observed : List PersistentVolumeClaim) :
    Prop where
  data : (∃ claim, storage = some (.persistentClaim claim)) → some "data" ∈ observed.map (·.name)
  sizes : ∀ p ∈ rendered, ∀ live ∈ observed, p.name = live.name →
    SizeFits (sizeClassFromPvc live).1 (sizeClassFromPvc p).1

/-! ## Sizes -/

/-- A size that passes the check in whole bytes is no smaller exactly when it fits. -/
theorem sizeFits_iff {observed desired : String} {q : ℚ} {n : Nat}
    (hdesired : parseQuantity desired = .ok n) (hobserved : exactQuantity observed = some q)
    (hle : quantityBytes observed ≤ quantityBytes desired) :
    (∃ q', exactQuantity desired = some q' ∧ q ≤ q') ↔ SizeFits observed desired := by
  constructor
  · rintro ⟨q', hq', hqq'⟩
    refine ⟨by rw [hq']; nofun, fun _ r hr r' hr' => ?_⟩
    cases hobserved.symm.trans hr
    cases hq'.symm.trans hr'
    exact hqq'
  · rintro ⟨hsome, hfits⟩
    obtain ⟨q', hq'⟩ := Option.ne_none_iff_exists'.mp hsome
    refine ⟨q', hq', ?_⟩
    cases hparse : parseQuantity observed with
    | error why => exact hfits (Or.inl ⟨why, hparse⟩) q hobserved q' hq'
    | ok m =>
      have hm : quantityBytes observed = m := by rw [quantityBytes, hparse]
      have hn : quantityBytes desired = n := by rw [quantityBytes, hdesired]
      rcases Nat.lt_or_eq_of_le hle with hlt | heq
      · -- A whole byte more: the rounding cannot hide the difference.
        have hmn : (m : ℚ) + 1 ≤ n := by exact_mod_cast hm ▸ hn ▸ hlt
        have hq := (floor_of_parseQuantity hparse hobserved).2
        have hq' := (floor_of_parseQuantity hdesired hq').1
        exact le_of_lt (lt_of_lt_of_le (lt_of_lt_of_le hq hmn) hq')
      · exact hfits (Or.inr heq) q hobserved q' hq'

/-! ## Names of the rendered claims -/

section Names

variable {storage : Option Storage} {podLabels : BTreeMap String} {tier : Option TieredStorage}

theorem diskName?_congr {p p' : PersistentVolumeClaim} (h : p.name = p'.name) :
    diskName? p = diskName? p' := by
  simp only [diskName?, h]

theorem name_of_mem_tierTemplates {p : PersistentVolumeClaim} (h : p ∈ tierTemplates tier podLabels) :
    p.name = some "tier-storage" := by
  unfold tierTemplates at h
  split at h
  · split at h
    · cases List.mem_singleton.mp h
      rfl
    · cases h
  · cases h

/-- A claim for the data is of a disk, and has the name of that disk. -/
theorem exists_disk_of_mem {p : PersistentVolumeClaim} (h : p ∈ dataTemplates storage podLabels) :
    ∃ v isPrimary, p.name = some (jbodMount v isPrimary) ∧
      diskName? p = some (if isPrimary then .primary else .extra v) := by
  unfold dataTemplates at h
  split at h
  · cases h
  · cases h
  · cases List.mem_singleton.mp h
    exact ⟨0, true, rfl, rfl⟩
  · rename_i spec
    cases hsorted : spec.volumes.insertionSort volumeLe with
    | nil =>
      rw [hsorted] at h
      cases h
    | cons primary extras =>
      rw [hsorted] at h
      rcases List.mem_cons.mp h with rfl | h
      · exact ⟨primary.id, true, rfl, diskName?_primary⟩
      · obtain ⟨v, -, rfl⟩ := List.mem_map.mp h
        exact ⟨v.id, false, rfl, diskName?_extra⟩

/-- Rendered claims of one disk have one name. -/
theorem name_eq_of_diskName? {p p' : PersistentVolumeClaim} {disk : DiskName}
    (hp : p ∈ renderStorage storage podLabels tier) (hp' : p' ∈ renderStorage storage podLabels tier)
    (h : diskName? p = some disk) (h' : diskName? p' = some disk) : p.name = p'.name := by
  have hdata {p : PersistentVolumeClaim} (hp : p ∈ renderStorage storage podLabels tier)
      (h : diskName? p = some disk) : p ∈ dataTemplates storage podLabels := by
    rcases List.mem_append.mp hp with hp | hp
    · exact hp
    · cases (diskName?_of_mem_tierTemplates hp).symm.trans h
  obtain ⟨v, isPrimary, hname, hdisk⟩ := exists_disk_of_mem (hdata hp h)
  obtain ⟨v', isPrimary', hname', hdisk'⟩ := exists_disk_of_mem (hdata hp' h')
  have heq := Option.some_inj.mp ((hdisk.symm.trans h).trans (h'.symm.trans hdisk'))
  rw [hname, hname']
  cases isPrimary with
  | true =>
    cases isPrimary' with
    | true => rfl
    | false => cases heq
  | false =>
    cases isPrimary' with
    | true => cases heq
    | false => rw [DiskName.extra.inj heq]

theorem jbodNames {volumes : List JbodVolume} :
    (jbodTemplates podLabels volumes).map (·.name) =
      match volumes with
      | [] => []
      | _ :: extras => some "data" :: extras.map fun v => some ("data-" ++ toString v.id) := by
  cases volumes with
  | nil => rfl
  | cons primary extras =>
    unfold jbodTemplates
    rw [List.map_cons, List.map_map]
    rfl

theorem nodup_dataNames (h : validateStorage storage = .ok ()) :
    ((dataTemplates storage podLabels).map (·.name)).Nodup := by
  unfold dataTemplates
  split
  · exact List.nodup_nil
  · exact List.nodup_nil
  · exact List.nodup_singleton _
  · rename_i spec
    have hids : ((spec.volumes.insertionSort volumeLe).map (·.id)).Nodup := by
      unfold validateStorage at h
      dsimp only at h
      split at h
      · cases h
      · exact ((List.perm_insertionSort volumeLe spec.volumes).map _).nodup_iff.mpr
          (nodup_of_checkVolumes h).2
    rw [jbodNames]
    split
    · exact List.nodup_nil
    · rename_i primary extras hsorted
      rw [hsorted, List.map_cons, List.nodup_cons] at hids
      rw [List.nodup_cons]
      constructor
      · intro hmem
        obtain ⟨v, -, hv⟩ := List.mem_map.mp hmem
        exact data_ne_append _ (Option.some_inj.mp hv)
      · have hinj : (extras.map fun v => some ("data-" ++ toString v.id)) =
            (extras.map (·.id)).map fun id => some ("data-" ++ toString id) := by
          rw [List.map_map]
          rfl
        rw [hinj]
        refine hids.2.map fun a b hab => ?_
        have hstrip := congrArg (stripPre "data-") (Option.some_inj.mp hab)
        rw [stripPre_append, stripPre_append] at hstrip
        exact Decimal.toString_injective (Option.some_inj.mp hstrip)

theorem nodup_renderedNames (h : validateStorage storage = .ok ()) :
    ((renderStorage storage podLabels tier).map (·.name)).Nodup := by
  unfold renderStorage
  rw [List.map_append, List.nodup_append]
  refine ⟨nodup_dataNames h, ?_, ?_⟩
  · rcases tierTemplates_cases tier podLabels with ⟨-, pvc, htier⟩ | ⟨-, htier⟩
    · rw [htier]
      exact List.nodup_singleton _
    · rw [htier]
      exact List.nodup_nil
  · intro name hname name' hname' heq
    obtain ⟨p, hp, rfl⟩ := List.mem_map.mp hname
    obtain ⟨p', hp', rfl⟩ := List.mem_map.mp hname'
    obtain ⟨v, isPrimary, -, hdisk⟩ := exists_disk_of_mem hp
    have hnone := diskName?_of_mem_tierTemplates hp'
    rw [← diskName?_congr heq, hdisk] at hnone
    cases hnone

end Names

/-! ## Live claims and their names -/

section Live

variable {rendered observed : List PersistentVolumeClaim} {live live' : PersistentVolumeClaim}

theorem liveNames (h : List.Forall₂ StoredAs rendered observed) :
    observed.map (·.name) = rendered.map (·.name) := by
  induction h with
  | nil => rfl
  | cons hstored _ ih => rw [List.map_cons, List.map_cons, hstored.name, ih]

theorem exists_rendered (h : List.Forall₂ StoredAs rendered observed) (hlive : live ∈ observed) :
    ∃ p ∈ rendered, StoredAs p live := by
  induction h with
  | nil => cases hlive
  | cons hstored _ ih =>
    rcases List.mem_cons.mp hlive with rfl | hlive
    · exact ⟨_, List.mem_cons_self, hstored⟩
    · obtain ⟨p, hp, hstored⟩ := ih hlive
      exact ⟨p, List.mem_cons_of_mem _ hp, hstored⟩

variable {storage : Option Storage} {podLabels : BTreeMap String} {tier : Option TieredStorage}

/-- A live claim is known by its name. -/
theorem live_unique (hvalid : validateStorage storage = .ok ())
    (h : List.Forall₂ StoredAs (renderStorage storage podLabels tier) observed)
    (hlive : live ∈ observed) (hlive' : live' ∈ observed) (hname : live.name = live'.name) :
    live = live' := by
  have hnodup : (observed.map (·.name)).Nodup := liveNames h ▸ nodup_renderedNames hvalid
  exact List.inj_on_of_nodup_map hnodup hlive hlive' hname

/-- A live claim is the one that is observed for its disk. -/
theorem observedDisk_live (hvalid : validateStorage storage = .ok ())
    (h : List.Forall₂ StoredAs (renderStorage storage podLabels tier) observed)
    (hlive : live ∈ observed) {disk : DiskName} (hdisk : diskName? live = some disk) :
    observedDisk observed disk = some (sizeClassFromPvc live) := by
  refine observedDisk_of_unique hlive hdisk fun p hp hpdisk => ?_
  obtain ⟨q, hq, hstored⟩ := exists_rendered h hlive
  obtain ⟨q', hq', hstored'⟩ := exists_rendered h hp
  have hname : q'.name = q.name := name_eq_of_diskName? hq' hq
    ((diskName?_congr hstored'.name).symm.trans hpdisk)
    ((diskName?_congr hstored.name).symm.trans hdisk)
  rw [live_unique hvalid h hp hlive (hstored'.name.trans (hname.trans hstored.name.symm))]

/-- What is observed of the disks depends on the names only. -/
theorem observedExtraIds_live (h : List.Forall₂ StoredAs rendered observed) :
    observedExtraIds observed = observedExtraIds rendered := by
  have hdisks : observed.filterMap diskName? = rendered.filterMap diskName? := by
    induction h with
    | nil => rfl
    | cons hstored _ ih =>
      rw [List.filterMap_cons, List.filterMap_cons, diskName?_congr hstored.name, ih]
  rw [observedExtraIds, observedExtraIds, hdisks]

end Live

/-! ## What an accepted change says -/

/-- A claim for the data passes the check against the live claim of its name. -/
def Checked (storage : Option Storage) (podLabels : BTreeMap String)
    (observed : List PersistentVolumeClaim) : Prop :=
  ∀ p ∈ dataTemplates storage podLabels, ∀ live ∈ observed, p.name = live.name →
    checkClassAndShrink (sizeClassFromPvc p) (sizeClassFromPvc live) = .ok ()

theorem tierNames (tier : Option TieredStorage) (podLabels podLabels' : BTreeMap String) :
    (tierTemplates tier podLabels).map (·.name) = (tierTemplates tier podLabels').map (·.name) := by
  unfold tierTemplates
  split
  · split
    · rfl
    · rfl
  · rfl

theorem length_tierTemplates (tier : Option TieredStorage) (podLabels : BTreeMap String) :
    (tierTemplates tier podLabels).length ≤ 1 := by
  rcases tierTemplates_cases tier podLabels with ⟨-, pvc, h⟩ | ⟨-, h⟩
  · rw [h, List.length_singleton]
  · rw [h, List.length_nil]
    omega

theorem observedStorageKind_claim {observed : List PersistentVolumeClaim}
    (h : observedStorageKind observed = "PersistentClaim") : ∃ live, observed = [live] := by
  unfold observedStorageKind at h
  split at h
  · exact absurd h (by decide)
  · rename_i hlen
    exact List.length_eq_one_iff.mp hlen
  · exact absurd h (by decide)

theorem observedStorageKind_ephemeral {observed : List PersistentVolumeClaim}
    (h : observedStorageKind observed = "Ephemeral") : observed = [] := by
  unfold observedStorageKind at h
  split at h
  · rename_i hlen
    exact List.length_eq_zero_iff.mp hlen
  · exact absurd h (by decide)
  · exact absurd h (by decide)

theorem length_of_observedStorageKind_jbod {observed : List PersistentVolumeClaim}
    (h : observedStorageKind observed = "Jbod") : 2 ≤ observed.length := by
  unfold observedStorageKind at h
  split at h
  · exact absurd h (by decide)
  · exact absurd h (by decide)
  · rename_i hzero hone
    exact (Nat.two_le_iff _).mpr ⟨hzero, hone⟩

/-- An accepted change keeps the kind, as far as the number of claims tells it. -/
theorem kind_of_validateStorageChange {storage : Option Storage}
    {observed : List PersistentVolumeClaim}
    (h : validateStorageChange storage (some observed) = .ok ()) :
    observedStorageKind observed = storageKind storage := by
  unfold validateStorageChange at h
  dsimp only at h
  split at h
  · cases h
  · rename_i hkind
    exact (not_not.mp hkind).symm

theorem checkExtras_eq_ok {observed : List PersistentVolumeClaim} {extras : List JbodVolume}
    (h : checkExtras observed extras = .ok ()) :
    ∀ v ∈ extras, checkDisk observed (.extra v.id) v = .ok () := by
  induction extras with
  | nil => exact fun v hv => absurd hv List.not_mem_nil
  | cons v extras ih =>
    unfold checkExtras at h
    obtain ⟨hv, hrest⟩ := Checks.then_eq_ok.mp h
    exact List.forall_mem_cons.mpr ⟨hv, ih hrest⟩

/-- What the check of a set of disks compares. -/
theorem validateJbodChange_eq_ok {spec : JbodSpec} {observed : List PersistentVolumeClaim}
    {primary : JbodVolume} {extras : List JbodVolume}
    (hsorted : spec.volumes.insertionSort volumeLe = primary :: extras)
    (h : validateJbodChange spec observed = .ok ()) :
    sameIds (extras.map (·.id)) (observedExtraIds observed) = true ∧
      checkDisk observed .primary primary = .ok () ∧
      ∀ v ∈ extras, checkDisk observed (.extra v.id) v = .ok () := by
  unfold validateJbodChange at h
  rw [hsorted] at h
  dsimp only at h
  obtain ⟨hsame, h⟩ := Checks.guard_eq_ok.mp h
  obtain ⟨hprimary, hextras⟩ := Checks.then_eq_ok.mp h
  exact ⟨by simpa using hsame, hprimary, checkExtras_eq_ok hextras⟩

theorem checkDisk_live {observed : List PersistentVolumeClaim} {disk : DiskName} {v : JbodVolume}
    {live : SizeClass} (hlive : observedDisk observed disk = some live)
    (h : checkDisk observed disk v = .ok ()) :
    checkClassAndShrink (v.size, v.className) live = .ok () := by
  unfold checkDisk at h
  rwa [hlive] at h

section Changes

variable {storage storage' : Option Storage} {podLabels podLabels' : BTreeMap String}
  {tier : Option TieredStorage} {observed : List PersistentVolumeClaim}

/-- The rendered claims and the live ones have the same names, and the data passes its checks. -/
def Matches (storage : Option Storage) (podLabels : BTreeMap String) (tier : Option TieredStorage)
    (observed : List PersistentVolumeClaim) : Prop :=
  (∀ name, name ∈ (renderStorage storage podLabels tier).map (·.name) ↔
    name ∈ observed.map (·.name)) ∧ Checked storage podLabels observed

theorem matches_ephemeral
    (hlive : List.Forall₂ StoredAs (renderStorage storage' podLabels' tier) observed)
    (hstorage : storage = none ∨ storage = some .ephemeral)
    (hok : validateStorageChange storage (some observed) = .ok ()) :
    Matches storage podLabels tier observed := by
  have hkind : observedStorageKind observed = "Ephemeral" := by
    rw [kind_of_validateStorageChange hok]
    rcases hstorage with rfl | rfl <;> rfl
  have hnil := observedStorageKind_ephemeral hkind
  subst hnil
  have hrendered := List.forall₂_nil_right_iff.mp hlive
  have htier := tierNames tier podLabels podLabels'
  rw [(List.append_eq_nil_iff.mp hrendered).2, List.map_nil] at htier
  have hrender : renderStorage storage podLabels tier = tierTemplates tier podLabels := by
    rcases hstorage with rfl | rfl <;> rfl
  have hdata : dataTemplates storage podLabels = [] := by
    rcases hstorage with rfl | rfl <;> rfl
  constructor
  · intro name
    rw [hrender, htier, List.map_nil]
  · intro p hp
    rw [hdata] at hp
    cases hp

theorem length_rendered_jbod {spec : JbodSpec}
    (hvalid : validateStorage (some (.jbod spec)) = .ok ()) :
    2 ≤ (renderStorage (some (.jbod spec)) podLabels tier).length := by
  unfold validateStorage at hvalid
  dsimp only at hvalid
  split at hvalid
  · cases hvalid
  · have hvolumes := (List.perm_insertionSort volumeLe spec.volumes).length_eq
    unfold renderStorage dataTemplates
    rw [List.length_append, jbodTemplates_length]
    omega

/-- Without storage for the data, no live claim is for the data. -/
theorem data_notMem_of_ephemeral (hstorage : storage' = none ∨ storage' = some .ephemeral)
    (hlive : List.Forall₂ StoredAs (renderStorage storage' podLabels' tier) observed) :
    some "data" ∉ observed.map (·.name) := by
  rw [liveNames hlive]
  intro hmem
  obtain ⟨p, hp, hname⟩ := List.mem_map.mp hmem
  have htier : p ∈ tierTemplates tier podLabels' := by
    rcases hstorage with rfl | rfl <;> exact hp
  rw [name_of_mem_tierTemplates htier] at hname
  exact absurd hname (by decide)

/-- An accepted change to one claim matches, unless no live claim is for the data. -/
theorem matches_claim {claim : PersistentClaimSpec} (hvalid' : validateStorage storage' = .ok ())
    (hlive : List.Forall₂ StoredAs (renderStorage storage' podLabels' tier) observed)
    (hok : validateStorageChange (some (.persistentClaim claim)) (some observed) = .ok ()) :
    some "data" ∉ observed.map (·.name) ∨
      Matches (some (.persistentClaim claim)) podLabels tier observed := by
  obtain ⟨live, rfl⟩ := observedStorageKind_claim (kind_of_validateStorageChange hok)
  have hcheck : checkClassAndShrink (claim.size, claim.className) (sizeClassFromPvc live) = .ok () :=
    hok
  have hlen := hlive.length_eq
  have hnames := liveNames hlive
  cases storage' with
  | none => exact Or.inl (data_notMem_of_ephemeral (Or.inl rfl) hlive)
  | some storage' =>
    cases storage' with
    | ephemeral => exact Or.inl (data_notMem_of_ephemeral (Or.inr rfl) hlive)
    | jbod spec =>
      have hlong := @length_rendered_jbod podLabels' tier spec hvalid'
      rw [hlen, List.length_singleton] at hlong
      omega
    | persistentClaim claim' =>
      have htier : tierTemplates tier podLabels' = [] := by
        have hcount : (renderStorage (some (.persistentClaim claim')) podLabels' tier).length =
            1 + (tierTemplates tier podLabels').length := List.length_append ..
        rw [hlen, List.length_singleton] at hcount
        exact List.length_eq_zero_iff.mp (by omega)
      have hnames' : (renderStorage (some (.persistentClaim claim)) podLabels tier).map (·.name) =
          [live].map (·.name) := by
        rw [hnames, renderStorage, renderStorage, List.map_append, List.map_append,
          tierNames tier podLabels podLabels', htier]
        rfl
      refine Or.inr ⟨fun name => by rw [hnames'], fun p hp live' hlive' hname => ?_⟩
      cases List.mem_singleton.mp hp
      cases List.mem_singleton.mp hlive'
      rwa [sizeClassFromPvc_pvcTemplate]

theorem mem_iff_of_sameIds {a b : List Int} (h : sameIds a b = true) (id : Int) :
    id ∈ a ↔ id ∈ b := by
  obtain ⟨hab, hba⟩ := Bool.and_eq_true_iff.mp h
  constructor
  · intro hid
    simpa using List.all_eq_true.mp hab id hid
  · intro hid
    simpa using List.all_eq_true.mp hba id hid

theorem observedExtraIds_claim {claim : PersistentClaimSpec} :
    observedExtraIds (renderStorage (some (.persistentClaim claim)) podLabels tier) = [] := by
  have htier : (tierTemplates tier podLabels).filterMap diskName? = [] :=
    List.filterMap_eq_nil_iff.mpr fun p hp => diskName?_of_mem_tierTemplates hp
  have hdata : diskName? (pvcTemplate "data" claim.size claim.className podLabels) =
      some .primary := rfl
  unfold observedExtraIds renderStorage dataTemplates
  rw [List.filterMap_append, htier, List.append_nil, List.filterMap_cons, hdata]
  rfl

/-- The names of two sets of disks with the same ids behind the first ones. -/
theorem jbodNames_iff {spec spec' : JbodSpec} {primary primary' : JbodVolume}
    {extras extras' : List JbodVolume}
    (hsorted : spec.volumes.insertionSort volumeLe = primary :: extras)
    (hsorted' : spec'.volumes.insertionSort volumeLe = primary' :: extras')
    (hids : ∀ id, id ∈ extras.map (·.id) ↔ id ∈ extras'.map (·.id)) (name : Option String) :
    name ∈ (renderStorage (some (.jbod spec)) podLabels tier).map (·.name) ↔
      name ∈ (renderStorage (some (.jbod spec')) podLabels' tier).map (·.name) := by
  have hextra (extras : List JbodVolume) :
      (extras.map fun v => some ("data-" ++ toString v.id)) =
        (extras.map (·.id)).map fun id => some ("data-" ++ toString id) := by
    rw [List.map_map]
    rfl
  simp only [renderStorage, dataTemplates, hsorted, hsorted', List.map_append, jbodNames,
    tierNames tier podLabels podLabels', List.mem_append, List.mem_cons, hextra]
  have hmem : name ∈ (extras.map (·.id)).map (fun id => some ("data-" ++ toString id)) ↔
      name ∈ (extras'.map (·.id)).map (fun id => some ("data-" ++ toString id)) := by
    rw [List.mem_map, List.mem_map]
    exact exists_congr fun id => and_congr_left fun _ => hids id
  rw [hmem]

/-- An accepted change to a set of disks matches. -/
theorem matches_jbod {spec : JbodSpec} (hvalid : validateStorage (some (.jbod spec)) = .ok ())
    (hvalid' : validateStorage storage' = .ok ())
    (hlive : List.Forall₂ StoredAs (renderStorage storage' podLabels' tier) observed)
    (hok : validateStorageChange (some (.jbod spec)) (some observed) = .ok ()) :
    Matches (some (.jbod spec)) podLabels tier observed := by
  have hkind := kind_of_validateStorageChange hok
  have hcount := length_of_observedStorageKind_jbod hkind
  have hlength := hlive.length_eq
  obtain ⟨primary, second, rest, hsorted⟩ : ∃ primary second rest,
      spec.volumes.insertionSort volumeLe = primary :: second :: rest := by
    have hvolumes : 2 ≤ (spec.volumes.insertionSort volumeLe).length := by
      rw [(List.perm_insertionSort volumeLe spec.volumes).length_eq]
      unfold validateStorage at hvalid
      dsimp only at hvalid
      split at hvalid
      · cases hvalid
      · omega
    cases hsorted : spec.volumes.insertionSort volumeLe with
    | nil => simp [hsorted] at hvolumes
    | cons primary extras =>
      cases extras with
      | nil => simp [hsorted] at hvolumes
      | cons second rest => exact ⟨primary, second, rest, rfl⟩
  have hjbod : validateJbodChange spec observed = .ok () := by
    unfold validateStorageChange at hok
    dsimp only at hok
    rwa [if_neg (not_not.mpr hkind.symm)] at hok
  obtain ⟨hsame, hprimary, hextras⟩ := validateJbodChange_eq_ok hsorted hjbod
  rw [observedExtraIds_live hlive] at hsame
  have hids := mem_iff_of_sameIds hsame
  cases storage' with
  | none =>
    have hshort := length_tierTemplates tier podLabels'
    have hlength : (tierTemplates tier podLabels').length = observed.length := hlength
    omega
  | some storage' =>
    cases storage' with
    | ephemeral =>
      have hshort := length_tierTemplates tier podLabels'
      have hlength : (tierTemplates tier podLabels').length = observed.length := hlength
      omega
    | persistentClaim claim' =>
      rw [observedExtraIds_claim] at hids
      cases (hids second.id).mp List.mem_cons_self
    | jbod spec' =>
      obtain ⟨primary', extras', hsorted'⟩ : ∃ primary' extras',
          spec'.volumes.insertionSort volumeLe = primary' :: extras' := by
        refine List.exists_cons_of_ne_nil fun hnil => ?_
        have hlong := @length_rendered_jbod podLabels' none spec' hvalid'
        rw [renderStorage, dataTemplates, hnil] at hlong
        simp [jbodTemplates, tierTemplates] at hlong
      have hids' : ∀ id, id ∈ (second :: rest).map (·.id) ↔ id ∈ extras'.map (·.id) := by
        intro id
        rw [hids id, renderStorage, dataTemplates, hsorted', observedExtraIds_rendered]
      refine ⟨fun name => ?_, fun p hp live hmem hname => ?_⟩
      · rw [liveNames hlive]
        exact jbodNames_iff hsorted hsorted' hids' name
      · rw [dataTemplates, hsorted] at hp
        have hdisk := diskName?_congr hname
        rcases List.mem_cons.mp hp with rfl | hp
        · rw [sizeClassFromPvc_pvcTemplate]
          exact checkDisk_live (observedDisk_live hvalid' hlive hmem (hdisk.symm.trans
            diskName?_primary)) hprimary
        · obtain ⟨v, hv, rfl⟩ := List.mem_map.mp hp
          rw [sizeClassFromPvc_pvcTemplate]
          exact checkDisk_live (observedDisk_live hvalid' hlive hmem (hdisk.symm.trans
            diskName?_extra)) (hextras v hv)

/-- An accepted change matches, unless it asks for one claim where none is for the data. -/
theorem matches_of_ok (hvalid : validateStorage storage = .ok ())
    (hvalid' : validateStorage storage' = .ok ())
    (hlive : List.Forall₂ StoredAs (renderStorage storage' podLabels' tier) observed)
    (hok : validateStorageChange storage (some observed) = .ok ()) :
    ((∃ claim, storage = some (.persistentClaim claim)) ∧ some "data" ∉ observed.map (·.name)) ∨
      Matches storage podLabels tier observed := by
  cases storage with
  | none => exact Or.inr (matches_ephemeral hlive (Or.inl rfl) hok)
  | some storage =>
    cases storage with
    | ephemeral => exact Or.inr (matches_ephemeral hlive (Or.inr rfl) hok)
    | persistentClaim claim =>
      exact (matches_claim hvalid' hlive hok).imp_left fun hdata => ⟨⟨claim, rfl⟩, hdata⟩
    | jbod spec => exact Or.inr (matches_jbod hvalid hvalid' hlive hok)

theorem checkClassAndShrink_eq_ok {desired live : SizeClass}
    (h : checkClassAndShrink desired live = .ok ()) :
    desired.2 = live.2 ∧ quantityBytes live.1 ≤ quantityBytes desired.1 := by
  unfold checkClassAndShrink at h
  split at h
  · cases h
  · rename_i hclass
    split at h
    · cases h
    · rename_i hsize
      exact ⟨not_not.mp hclass, not_lt.mp hsize⟩

theorem checkSize_eq_ok {size : String} (h : checkSize size = .ok ()) :
    ∃ n, parseQuantity size = .ok n := by
  unfold checkSize at h
  split at h
  · cases h
  · rename_i n hn
    exact ⟨n, hn⟩

theorem checkSize_of_checkVolumes {volumes : List JbodVolume} {seen : List Int}
    (h : checkVolumes seen volumes = .ok ()) : ∀ v ∈ volumes, checkSize v.size = .ok () := by
  induction volumes generalizing seen with
  | nil => exact fun v hv => absurd hv List.not_mem_nil
  | cons v volumes ih =>
    unfold checkVolumes at h
    split at h
    · cases h
    · obtain ⟨hv, hrest⟩ := Checks.then_eq_ok.mp h
      exact List.forall_mem_cons.mpr ⟨hv, ih hrest⟩

/-- The sizes of an accepted pool are read. -/
theorem parseQuantity_of_valid (hvalid : validateStorage storage = .ok ())
    {p : PersistentVolumeClaim} (hp : p ∈ dataTemplates storage podLabels) :
    ∃ n, parseQuantity (sizeClassFromPvc p).1 = .ok n := by
  unfold dataTemplates at hp
  split at hp
  · cases hp
  · cases hp
  · rename_i claim
    cases List.mem_singleton.mp hp
    rw [sizeClassFromPvc_pvcTemplate]
    exact checkSize_eq_ok hvalid
  · rename_i spec
    have hsizes : ∀ v ∈ spec.volumes.insertionSort volumeLe, checkSize v.size = .ok () := by
      unfold validateStorage at hvalid
      dsimp only at hvalid
      split at hvalid
      · cases hvalid
      · intro v hv
        exact checkSize_of_checkVolumes hvalid v
          ((List.perm_insertionSort volumeLe spec.volumes).mem_iff.mp hv)
    cases hsorted : spec.volumes.insertionSort volumeLe with
    | nil =>
      rw [hsorted] at hp
      cases hp
    | cons primary extras =>
      rw [hsorted] at hp hsizes
      rcases List.mem_cons.mp hp with rfl | hp
      · rw [sizeClassFromPvc_pvcTemplate]
        exact checkSize_eq_ok (hsizes primary List.mem_cons_self)
      · obtain ⟨v, hv, rfl⟩ := List.mem_map.mp hp
        rw [sizeClassFromPvc_pvcTemplate]
        exact checkSize_eq_ok (hsizes v (List.mem_cons_of_mem _ hv))

theorem sizeClassFromPvc_tier {p p' : PersistentVolumeClaim} (hp : p ∈ tierTemplates tier podLabels)
    (hp' : p' ∈ tierTemplates tier podLabels') : sizeClassFromPvc p = sizeClassFromPvc p' := by
  unfold tierTemplates at hp hp'
  split at hp
  · rename_i hkind
    rw [if_pos hkind] at hp'
    split at hp
    · rename_i persistence hpersistence
      rw [hpersistence] at hp'
      cases List.mem_singleton.mp hp
      cases List.mem_singleton.mp hp'
      rw [sizeClassFromPvc_pvcTemplate, sizeClassFromPvc_pvcTemplate]
    · cases hp
  · cases hp

/-- The claim of the tier is the live one. -/
theorem tier_live (hlive : List.Forall₂ StoredAs (renderStorage storage' podLabels' tier) observed)
    {p live : PersistentVolumeClaim} (hp : p ∈ tierTemplates tier podLabels)
    (hmem : live ∈ observed) (hname : p.name = live.name) :
    (sizeClassFromPvc p).2 = (sizeClassFromPvc live).2 ∧
      ∃ q, exactQuantity (sizeClassFromPvc live).1 = some q ∧
        exactQuantity (sizeClassFromPvc p).1 = some q := by
  obtain ⟨r, hr, hstored⟩ := exists_rendered hlive hmem
  have hdisk : diskName? r = none :=
    (diskName?_congr (hname.trans hstored.name)).symm.trans (diskName?_of_mem_tierTemplates hp)
  rcases List.mem_append.mp hr with hr | hr
  · obtain ⟨v, isPrimary, -, hsome⟩ := exists_disk_of_mem hr
    cases hdisk.symm.trans hsome
  · obtain ⟨q, hq, hq'⟩ := hstored.size
    rw [sizeClassFromPvc_tier hp hr]
    exact ⟨hstored.className.symm, q, hq', hq⟩

/-- An accepted change keeps every claim and shrinks none, exactly when it fits. -/
theorem kept_iff_changeFits {printable : Char → Bool} {profile : Option SeccompProfile}
    {pool : KafkaNodePool} (hpool : validate (checkStorage printable storage profile) pool = .ok ())
    (hcreated : Created printable tier observed)
    (hok : validateStorageChange storage (some observed) = .ok ()) :
    Kept (renderStorage storage podLabels tier) observed ↔
      ChangeFits storage (renderStorage storage podLabels tier) observed := by
  obtain ⟨storage', profile', pool', podLabels', hpool', hlive⟩ := hcreated
  have hvalid := storage_of_validate hpool
  have hvalid' := storage_of_validate hpool'
  have hdata (claim : PersistentClaimSpec) :
      some "data" ∈ (renderStorage (some (.persistentClaim claim)) podLabels tier).map (·.name) :=
    List.mem_cons_self
  rcases @matches_of_ok storage storage' podLabels podLabels' tier observed hvalid hvalid' hlive hok
    with ⟨⟨claim, rfl⟩, hnone⟩ | ⟨hnames, hchecked⟩
  · refine iff_of_false (fun hkept => ?_) fun hfits => hnone (hfits.data ⟨claim, rfl⟩)
    exact hnone ((hkept.names _).mp (hdata claim))
  · constructor
    · intro hkept
      refine ⟨?_, fun p hp live hmem hname => ?_⟩
      · rintro ⟨claim, rfl⟩
        exact (hnames _).mp (hdata claim)
      · obtain ⟨-, q, q', hq, hq', hqq'⟩ := hkept.sizes p hp live hmem hname
        refine ⟨by rw [hq']; nofun, fun _ r hr r' hr' => ?_⟩
        cases hq.symm.trans hr
        cases hq'.symm.trans hr'
        exact hqq'
    · intro hfits
      refine ⟨hnames, fun p hp live hmem hname => ?_⟩
      rcases List.mem_append.mp hp with hpdata | hptier
      · obtain ⟨hclass, hbytes⟩ := checkClassAndShrink_eq_ok (hchecked p hpdata live hmem hname)
        obtain ⟨n, hn⟩ := parseQuantity_of_valid hvalid hpdata
        obtain ⟨r, -, hstored⟩ := exists_rendered hlive hmem
        obtain ⟨q, -, hq⟩ := hstored.size
        obtain ⟨q', hq', hqq'⟩ := (sizeFits_iff hn hq hbytes).mpr (hfits.sizes p hp live hmem hname)
        exact ⟨hclass, q, q', hq, hq', hqq'⟩
      · obtain ⟨hclass, q, hq, hq'⟩ := tier_live hlive hptier hmem hname
        exact ⟨hclass, q, q, hq, hq', le_rfl⟩

end Changes

namespace Sample

def claimOf (size : String) : Storage := .persistentClaim { size := size }

/-- A live claim for the data. -/
def liveClaim (size : String) : PersistentVolumeClaim := pvcTemplate "data" size none ∅

end Sample

theorem created_claim (size live : String) (q : ℚ)
    (hpool : validate (checkStorage (fun _ => true) (some (Sample.claimOf size)) none)
      Sample.storagePool = .ok ())
    (hsize : exactQuantity size = some q) (hlive : exactQuantity live = some q) :
    Created (fun _ => true) none [Sample.liveClaim live] := by
  refine ⟨some (Sample.claimOf size), none, Sample.storagePool, ∅, hpool,
    .cons ⟨rfl, ?_, q, ?_, ?_⟩ .nil⟩
  · rw [Sample.liveClaim, sizeClassFromPvc_pvcTemplate, sizeClassFromPvc_pvcTemplate]
  · rwa [sizeClassFromPvc_pvcTemplate]
  · rwa [Sample.liveClaim, sizeClassFromPvc_pvcTemplate]

/-- A claim that grows from 10Gi to 20Gi is kept. -/
theorem kept_growing_claim :
    Kept (renderStorage (some (Sample.claimOf "20Gi")) ∅ none) [Sample.liveClaim "10Gi"] := by
  have hcreated : Created (fun _ => true) none [Sample.liveClaim "10Gi"] :=
    created_claim "10Gi" "10Gi" (10 * 1073741824) (by decide +kernel) (by decide +kernel)
      (by decide +kernel)
  refine (@kept_iff_changeFits (some (Sample.claimOf "20Gi")) ∅ none [Sample.liveClaim "10Gi"]
    (fun _ => true) none Sample.storagePool (by decide) hcreated (by decide)).mpr
    ⟨fun _ => List.mem_cons_self, fun p hp live hmem _ => ?_⟩
  cases List.mem_singleton.mp hp
  cases List.mem_singleton.mp hmem
  rw [Sample.liveClaim, sizeClassFromPvc_pvcTemplate, sizeClassFromPvc_pvcTemplate]
  have hdesired : exactQuantity "20Gi" = some (20 * 1073741824) := by decide +kernel
  have hobserved : exactQuantity "10Gi" = some (10 * 1073741824) := by decide +kernel
  refine ⟨by rw [hdesired]; nofun, fun _ q hq q' hq' => ?_⟩
  cases hobserved.symm.trans hq
  cases hdesired.symm.trans hq'
  norm_num

/-- A claim of 123456789000 bytes is stored as `123456789k`, which is not read: it may shrink to
1Gi. And where only the tier has a claim, a claim for the data is accepted. -/
theorem change_not_kept :
    (Created (fun _ => true) none [Sample.liveClaim "123456789k"] ∧
      validateStorageChange (some (Sample.claimOf "1Gi")) (some [Sample.liveClaim "123456789k"]) =
        .ok () ∧
      ¬ Kept (renderStorage (some (Sample.claimOf "1Gi")) ∅ none)
        [Sample.liveClaim "123456789k"]) ∧
    (Created (fun _ => true) (some Sample.localTier)
        (renderStorage none ∅ (some Sample.localTier)) ∧
      validateStorageChange (some (Sample.claimOf "50Gi"))
        (some (renderStorage none ∅ (some Sample.localTier))) = .ok () ∧
      ¬ Kept (renderStorage (some (Sample.claimOf "50Gi")) ∅ (some Sample.localTier))
        (renderStorage none ∅ (some Sample.localTier))) := by
  refine ⟨⟨?_, by decide, fun hkept => ?_⟩, ?_, by decide, fun hkept => ?_⟩
  · exact created_claim "123456789000" "123456789k" 123456789000 (by decide)
      (by decide +kernel) (by decide +kernel)
  · obtain ⟨-, q, q', hq, hq', hle⟩ := hkept.sizes _ List.mem_cons_self _ List.mem_cons_self rfl
    have hlive : exactQuantity "123456789k" = some 123456789000 := by decide +kernel
    have hdesired : exactQuantity "1Gi" = some 1073741824 := by decide +kernel
    rw [Sample.liveClaim, sizeClassFromPvc_pvcTemplate] at hq
    rw [sizeClassFromPvc_pvcTemplate] at hq'
    cases hlive.symm.trans hq
    cases hdesired.symm.trans hq'
    norm_num at hle
  · have htier : exactQuantity "50Gi" = some (50 * 1073741824) := by decide +kernel
    refine ⟨none, none, Sample.storagePool, ∅, by decide,
      List.forall₂_same.mpr fun p hp => ?_⟩
    cases List.mem_singleton.mp hp
    exact ⟨rfl, rfl, _, by rwa [sizeClassFromPvc_pvcTemplate], by rwa [sizeClassFromPvc_pvcTemplate]⟩
  · have hmem := (hkept.names (some "data")).mp List.mem_cons_self
    have heq : some "data" = some "tier-storage" := List.mem_singleton.mp hmem
    exact absurd heq (by decide)

end NodePool
