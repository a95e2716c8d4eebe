-- SUMMARY: The check of a storage change on the claims that the operator itself has rendered: it accepts them unless a local tier adds a claim.
import KrabkaOperator.NodePool.Storage

/-!
# The claims that were rendered

The check counts the claims to tell the kinds of storage apart. The claim of a local
tier is counted with those of the data.
-/

namespace NodePool

open Kube Crd

/-! ## What is read back from a claim -/

@[simp] theorem sizeClassFromPvc_pvcTemplate (name : String) {size : String}
    {className : Option String} (podLabels : BTreeMap String) :
    sizeClassFromPvc (pvcTemplate name size className podLabels) = (size, className) := by
  have hget : (BTreeMap.ofList [("storage", size)])["storage"]? = some size := by
    rw [BTreeMap.getElem?_ofList]
    rfl
  simp [sizeClassFromPvc, pvcTemplate, hget]

theorem checkClassAndShrink_self (live : SizeClass) : checkClassAndShrink live live = .ok () := by
  unfold checkClassAndShrink
  rw [if_neg (by simp), if_neg (lt_irrefl _)]

theorem data_ne_append (s : String) : "data-" ++ s ≠ "data" := by
  intro h
  have hlen := congrArg (fun t : String => t.toList.length) h
  simp [String.toList_append] at hlen

/-! ## The disks -/

theorem diskName?_primary {v : JbodVolume} {podLabels : BTreeMap String} :
    diskName? (pvcTemplate (jbodMount v.id true) v.size v.className podLabels) = some .primary := rfl

theorem diskName?_extra {v : JbodVolume} {podLabels : BTreeMap String} :
    diskName? (pvcTemplate (jbodMount v.id false) v.size v.className podLabels) =
      some (.extra v.id) := by
  have hbound := v.isI32
  unfold IsI32 maxI32 at hbound
  have hparse : Decimal.parseI32 (toString v.id) = some v.id :=
    Decimal.parseI32_toString (by omega)
  change (if "data-" ++ toString v.id = "data" then some DiskName.primary
    else (stripPre "data-" ("data-" ++ toString v.id) >>= Decimal.parseI32).map DiskName.extra) = _
  rw [if_neg (data_ne_append _), stripPre_append]
  exact congrArg (Option.map DiskName.extra) hparse

theorem diskName?_tier {size : String} {className : Option String} {podLabels : BTreeMap String} :
    diskName? (pvcTemplate "tier-storage" size className podLabels) = none := by
  have hname : diskName? (pvcTemplate "tier-storage" size className podLabels) =
      (stripPre "data-" "tier-storage" >>= Decimal.parseI32).map DiskName.extra := rfl
  have hstrip : stripPre "data-" "tier-storage" = none := by decide
  rw [hname, hstrip]
  rfl

theorem diskName?_of_mem_tierTemplates {tier : Option TieredStorage} {podLabels : BTreeMap String}
    {pvc : PersistentVolumeClaim} (h : pvc ∈ tierTemplates tier podLabels) : diskName? pvc = none := by
  unfold tierTemplates at h
  split at h
  · split at h
    · cases List.mem_singleton.mp h
      exact diskName?_tier
    · cases h
  · cases h

/-- The only claim of a disk is the one that is observed. -/
theorem observedDisk_of_unique {observed : List PersistentVolumeClaim} {disk : DiskName}
    {pvc : PersistentVolumeClaim} (hmem : pvc ∈ observed) (hname : diskName? pvc = some disk)
    (huniq : ∀ p ∈ observed, diskName? p = some disk → sizeClassFromPvc p = sizeClassFromPvc pvc) :
    observedDisk observed disk = some (sizeClassFromPvc pvc) := by
  unfold observedDisk
  cases hfind : observed.reverse.find? fun p => diskName? p = some disk with
  | none =>
    have hnone := List.find?_eq_none.mp hfind pvc (List.mem_reverse.mpr hmem)
    exact absurd hname (by simpa using hnone)
  | some p =>
    have hp := List.mem_reverse.mp (List.mem_of_find?_eq_some hfind)
    have hdisk := List.find?_some hfind
    rw [Option.map_some, huniq p hp (by simpa using hdisk)]

/-- Disks that pass the checks have ids of their own. -/
theorem nodup_of_checkVolumes {volumes : List JbodVolume} {seen : List Int}
    (h : checkVolumes seen volumes = .ok ()) :
    (∀ v ∈ volumes, v.id ∉ seen) ∧ (volumes.map (·.id)).Nodup := by
  induction volumes generalizing seen with
  | nil => exact ⟨fun v hv => absurd hv List.not_mem_nil, List.nodup_nil⟩
  | cons v volumes ih =>
    unfold checkVolumes at h
    split at h
    · cases h
    · rename_i hseen
      obtain ⟨u, -, hrest⟩ := Checks.bind_eq_ok.mp h
      obtain ⟨hnew, hnodup⟩ := ih hrest
      refine ⟨List.forall_mem_cons.mpr ⟨hseen, fun w hw hmem =>
        hnew w hw (List.mem_cons_of_mem _ hmem)⟩, ?_⟩
      rw [List.map_cons, List.nodup_cons]
      refine ⟨fun hmem => ?_, hnodup⟩
      obtain ⟨w, hw, heq⟩ := List.mem_map.mp hmem
      exact hnew w hw (heq ▸ List.mem_cons_self)

/-! ## The rendered claims -/

section Jbod

variable {primary v : JbodVolume} {extras : List JbodVolume} {podLabels : BTreeMap String}
  {tier : Option TieredStorage}

theorem observedDisk_primary :
    observedDisk (jbodTemplates podLabels (primary :: extras) ++ tierTemplates tier podLabels)
      .primary = some (primary.size, primary.className) := by
  rw [← sizeClassFromPvc_pvcTemplate (jbodMount primary.id true) podLabels]
  refine observedDisk_of_unique (List.mem_append_left _ List.mem_cons_self) diskName?_primary ?_
  intro p hp hname
  rcases List.mem_append.mp hp with hp | hp
  · rcases List.mem_cons.mp hp with rfl | hp
    · rfl
    · obtain ⟨w, -, rfl⟩ := List.mem_map.mp hp
      cases diskName?_extra.symm.trans hname
  · cases (diskName?_of_mem_tierTemplates hp).symm.trans hname

theorem observedDisk_extra (hnodup : (extras.map (·.id)).Nodup) (hv : v ∈ extras) :
    observedDisk (jbodTemplates podLabels (primary :: extras) ++ tierTemplates tier podLabels)
      (.extra v.id) = some (v.size, v.className) := by
  rw [← sizeClassFromPvc_pvcTemplate (jbodMount v.id false) podLabels]
  refine observedDisk_of_unique (List.mem_append_left _ (List.mem_cons_of_mem _
    (List.mem_map_of_mem (f := fun v : JbodVolume =>
      pvcTemplate (jbodMount v.id false) v.size v.className podLabels) hv))) diskName?_extra ?_
  intro p hp hname
  rcases List.mem_append.mp hp with hp | hp
  · rcases List.mem_cons.mp hp with rfl | hp
    · cases diskName?_primary.symm.trans hname
    · obtain ⟨w, hw, rfl⟩ := List.mem_map.mp hp
      have hid : w.id = v.id := DiskName.extra.inj (Option.some.inj (diskName?_extra.symm.trans hname))
      rw [List.inj_on_of_nodup_map hnodup hw hv hid]
  · cases (diskName?_of_mem_tierTemplates hp).symm.trans hname

theorem observedExtraIds_rendered :
    observedExtraIds (jbodTemplates podLabels (primary :: extras) ++ tierTemplates tier podLabels) =
      extras.map (·.id) := by
  have htier : (tierTemplates tier podLabels).filterMap diskName? = [] :=
    List.filterMap_eq_nil_iff.mpr fun p hp => diskName?_of_mem_tierTemplates hp
  unfold observedExtraIds jbodTemplates
  rw [List.filterMap_append, htier, List.append_nil, List.filterMap_cons, diskName?_primary,
    List.filterMap_map]
  simp only [Function.comp_def, diskName?_extra, List.filterMap_cons]
  rw [List.filterMap_filterMap]
  exact congrFun List.filterMap_eq_map extras

theorem checkExtras_rendered {rest : List JbodVolume} (hnodup : (extras.map (·.id)).Nodup)
    (hsub : ∀ v ∈ rest, v ∈ extras) :
    checkExtras (jbodTemplates podLabels (primary :: extras) ++ tierTemplates tier podLabels) rest =
      .ok () := by
  induction rest with
  | nil => rfl
  | cons v rest ih =>
    obtain ⟨hv, hrest⟩ := List.forall_mem_cons.mp hsub
    unfold checkExtras checkDisk
    rw [observedDisk_extra hnodup hv]
    dsimp only
    rw [checkClassAndShrink_self]
    exact ih hrest

end Jbod

theorem sameIds_self (l : List Int) : sameIds l l = true := by
  simp [sameIds]

/-- The check accepts the claims of the same disks. -/
theorem validateJbodChange_rendered {spec : JbodSpec} {podLabels : BTreeMap String}
    {tier : Option TieredStorage} (h : checkVolumes [] spec.volumes = .ok ()) :
    validateJbodChange spec (jbodTemplates podLabels (spec.volumes.insertionSort volumeLe) ++
      tierTemplates tier podLabels) = .ok () := by
  have hnodup : ((spec.volumes.insertionSort volumeLe).map (·.id)).Nodup :=
    ((List.perm_insertionSort volumeLe spec.volumes).map _).nodup_iff.mpr
      (nodup_of_checkVolumes h).2
  unfold validateJbodChange
  cases hsorted : spec.volumes.insertionSort volumeLe with
  | nil => rfl
  | cons primary extras =>
    rw [hsorted, List.map_cons, List.nodup_cons] at hnodup
    dsimp only
    rw [observedExtraIds_rendered, sameIds_self]
    unfold checkDisk
    rw [observedDisk_primary]
    dsimp only
    rw [checkClassAndShrink_self]
    exact checkExtras_rendered hnodup.2 fun v hv => hv

/-! ## The check of the rendered claims -/

/-- The parent has a local tier that persists. -/
def PersistentTier (tier : Option TieredStorage) : Prop :=
  ∃ t, tier = some t ∧ t.kind = .local ∧ t.persistence ≠ none

theorem tierTemplates_cases (tier : Option TieredStorage) (podLabels : BTreeMap String) :
    (PersistentTier tier ∧ ∃ pvc, tierTemplates tier podLabels = [pvc]) ∨
      (¬ PersistentTier tier ∧ tierTemplates tier podLabels = []) := by
  unfold tierTemplates
  cases tier with
  | none =>
    right
    refine ⟨?_, rfl⟩
    rintro ⟨t, ht, -⟩
    cases ht
  | some t =>
    by_cases hkind : t.kind = .local
    · rw [if_pos (by rw [Option.map_some, hkind])]
      cases hp : t.persistence with
      | none =>
        right
        refine ⟨?_, by simp [hp]⟩
        rintro ⟨t', ht, -, hsome⟩
        cases ht
        exact hsome hp
      | some p =>
        left
        exact ⟨⟨t, rfl, hkind, by rw [hp]; nofun⟩, by simp [hp]⟩
    · right
      rw [if_neg (by simpa using hkind)]
      refine ⟨?_, rfl⟩
      rintro ⟨t', ht, hlocal, -⟩
      cases ht
      exact hkind hlocal

/-- An accepted pool has accepted storage. -/
theorem storage_of_validate {printable : Char → Bool} {storage : Option Storage}
    {profile : Option SeccompProfile} {pool : KafkaNodePool}
    (h : validate (checkStorage printable storage profile) pool = .ok ()) :
    validateStorage storage = .ok () := by
  have hcheck : checkStorage printable storage profile pool = .ok () := storageCheck_of_validate h
  unfold checkStorage at hcheck
  cases hstorage : validateStorage storage with
  | error e =>
    rw [hstorage] at hcheck
    cases hcheck
  | ok u => rfl

/-- A set of disks has two claims at least. -/
theorem observedStorageKind_jbod {templates : List PersistentVolumeClaim}
    (h : 2 ≤ templates.length) : observedStorageKind templates = "Jbod" := by
  unfold observedStorageKind
  split
  · omega
  · omega
  · rfl

theorem jbodTemplates_length (podLabels : BTreeMap String) (volumes : List JbodVolume) :
    (jbodTemplates podLabels volumes).length = volumes.length := by
  cases volumes <;> simp [jbodTemplates]

theorem validateStorageChange_jbod {spec : JbodSpec} {podLabels : BTreeMap String}
    {tier : Option TieredStorage} (h : validateStorage (some (.jbod spec)) = .ok ()) :
    validateStorageChange (some (.jbod spec))
      (some (renderStorage (some (.jbod spec)) podLabels tier)) = .ok () := by
  unfold validateStorage at h
  dsimp only at h
  split at h
  · cases h
  · rename_i hlen
    have hcount : 2 ≤ (renderStorage (some (.jbod spec)) podLabels tier).length := by
      have hvolumes := (List.perm_insertionSort volumeLe spec.volumes).length_eq
      unfold renderStorage dataTemplates
      rw [List.length_append, jbodTemplates_length]
      omega
    unfold validateStorageChange
    dsimp only
    rw [observedStorageKind_jbod hcount, if_neg (by simp [storageKind])]
    exact validateJbodChange_rendered h

/-- Without a claim for the data, a claim of the tier looks like one. -/
theorem validateStorageChange_ephemeral {storage : Option Storage} {podLabels : BTreeMap String}
    {tier : Option TieredStorage} (h : storage = none ∨ storage = some .ephemeral) :
    validateStorageChange storage (some (renderStorage storage podLabels tier)) = .ok () ↔
      ¬ PersistentTier tier := by
  have hrender : renderStorage storage podLabels tier = tierTemplates tier podLabels := by
    rcases h with rfl | rfl <;> rfl
  rw [hrender]
  rcases tierTemplates_cases tier podLabels with ⟨htier, pvc, htemplates⟩ | ⟨htier, htemplates⟩
  · rw [htemplates]
    refine ⟨fun hok => ?_, fun hnot => absurd htier hnot⟩
    rcases h with rfl | rfl <;> cases hok
  · rw [htemplates]
    refine ⟨fun _ => htier, fun _ => ?_⟩
    rcases h with rfl | rfl <;> rfl

/-- With the claim of the tier, one claim looks like a set of disks. -/
theorem validateStorageChange_persistentClaim {claim : PersistentClaimSpec}
    {podLabels : BTreeMap String} {tier : Option TieredStorage} :
    validateStorageChange (some (.persistentClaim claim))
        (some (renderStorage (some (.persistentClaim claim)) podLabels tier)) = .ok () ↔
      ¬ PersistentTier tier := by
  have hrender : renderStorage (some (.persistentClaim claim)) podLabels tier =
      pvcTemplate "data" claim.size claim.className podLabels :: tierTemplates tier podLabels := rfl
  rw [hrender]
  rcases tierTemplates_cases tier podLabels with ⟨htier, pvc, htemplates⟩ | ⟨htier, htemplates⟩
  · rw [htemplates]
    refine ⟨fun hok => ?_, fun hnot => absurd htier hnot⟩
    cases hok
  · rw [htemplates]
    refine ⟨fun _ => htier, fun _ => ?_⟩
    change checkClassAndShrink (claim.size, claim.className)
      (sizeClassFromPvc (pvcTemplate "data" claim.size claim.className podLabels)) = .ok ()
    rw [sizeClassFromPvc_pvcTemplate, checkClassAndShrink_self]

/-- The claims that are rendered for a pool that the checks accept pass the check of a change
    exactly when the pool has a set of disks, or the parent has no local tier that persists. -/
theorem validateStorageChange_rendered_iff {printable : Char → Bool} {storage : Option Storage}
    {profile : Option SeccompProfile} {pool : KafkaNodePool} (podLabels : BTreeMap String)
    (tier : Option TieredStorage)
    (hpool : validate (checkStorage printable storage profile) pool = .ok ()) :
    validateStorageChange storage (some (renderStorage storage podLabels tier)) = .ok () ↔
      (∃ spec, storage = some (.jbod spec)) ∨
      ¬ ∃ t, tier = some t ∧ t.kind = .local ∧ t.persistence ≠ none := by
  have hother (h : ¬ ∃ spec, storage = some (.jbod spec))
      (hiff : validateStorageChange storage (some (renderStorage storage podLabels tier)) = .ok () ↔
        ¬ PersistentTier tier) :
      validateStorageChange storage (some (renderStorage storage podLabels tier)) = .ok () ↔
        (∃ spec, storage = some (.jbod spec)) ∨ ¬ PersistentTier tier :=
    hiff.trans (or_iff_right h).symm
  cases storage with
  | none => exact hother (by simp) (validateStorageChange_ephemeral (.inl rfl))
  | some storage =>
    cases storage with
    | ephemeral => exact hother (by simp) (validateStorageChange_ephemeral (.inr rfl))
    | persistentClaim claim => exact hother (by simp) validateStorageChange_persistentClaim
    | jbod spec =>
      exact ⟨fun _ => .inl ⟨spec, rfl⟩, fun _ =>
        validateStorageChange_jbod (storage_of_validate hpool)⟩

namespace Sample

/-- A local tier on a claim of its own. -/
def localTier : TieredStorage := { kind := .local, persistence := some { size := "50Gi" } }

def disks : Storage :=
  .jbod { volumes := [{ id := 7, size := "20Gi" }, { id := 0, size := "10Gi" }] }

def claim : Storage := .persistentClaim { size := "10Gi" }

def storagePool : KafkaNodePool where
  name := "a"
  labels := ∅
  spec := ⟨1, 0, [.broker]⟩
  status := none

end Sample

theorem validateStorageChange_rendered_disks :
    validateStorageChange (some Sample.disks)
      (some (renderStorage (some Sample.disks) ∅ (some Sample.localTier))) = .ok () :=
  (@validateStorageChange_rendered_iff (fun _ => true) (some Sample.disks) none
    Sample.storagePool ∅ (some Sample.localTier) (by decide)).mpr
      (.inl ⟨_, rfl⟩)

/-- A pool with a claim, under a parent with a local tier that persists. Both are accepted. -/
theorem validateStorageChange_rejects_rendered :
    Sample.localTier.validate (fun _ => .ok ()) = .ok () ∧
    validate (checkStorage (fun _ => true) (some Sample.claim) none) Sample.storagePool = .ok () ∧
    validateStorageChange (some Sample.claim)
      (some (renderStorage (some Sample.claim) ∅ (some Sample.localTier))) =
        .error (.typeChanged "Jbod" "PersistentClaim") := by
  refine ⟨?_, ?_, ?_⟩
  · decide
  · decide
  · decide

end NodePool
