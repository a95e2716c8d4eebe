-- SUMMARY: The storage of a pool: its checks, the volume claims that are rendered for it, and the check of a change against the live claims.
import KrabkaOperator.Crd.TieredStorage
import KrabkaOperator.Kube.Quantity
import KrabkaOperator.NodePool.Identity

/-!
# Storage of a pool

A pool keeps its data on an empty volume, on one claim, or on a claim for each disk.
The claims of a StatefulSet cannot change, so a pass compares the spec with them.
-/

namespace NodePool

open Kube Crd

/-! ## The spec -/

structure PersistentClaimSpec where
  size : String
  className : Option String := none
  deleteClaim : Bool := false
  deriving DecidableEq, Repr

/-- A disk, whose id is an `i32`. -/
structure JbodVolume where
  id : Int
  size : String
  className : Option String := none
  isI32 : IsI32 id := by decide
  deriving DecidableEq

structure JbodSpec where
  volumes : List JbodVolume
  deleteClaim : Bool := false
  deriving DecidableEq

inductive Storage where
  | ephemeral
  | persistentClaim (claim : PersistentClaimSpec)
  | jbod (spec : JbodSpec)
  deriving DecidableEq

inductive SeccompProfileType where
  | runtimeDefault
  | localhost
  deriving DecidableEq, Repr

structure SeccompProfile where
  profileType : SeccompProfileType
  localhostProfile : Option String := none
  deriving DecidableEq, Repr

/-! ## Errors -/

inductive StorageError where
  | sizeInvalid (value why : String)
  | typeChanged (fromKind toKind : String)
  | classChanged (fromClass toClass : Option String)
  | shrinkNotAllowed (current desired : String)
  | jbodNeedsTwoVolumes (n : Nat)
  | jbodDuplicateVolumeId (id : Int)
  | jbodVolumesImmutable
  | seccompLocalhostProfileMissing
  | seccompLocalhostProfileUnexpected
  | seccompLocalhostProfileInvalid (path : String)
  deriving DecidableEq, Repr

section Messages

variable (printable : Char → Bool)

def debugOption : Option String → String
  | none => "None"
  | some s => "Some(" ++ Text.debug printable s.toList ++ ")"

/-- The reason and the message of the condition for an error. -/
def StorageError.condition : StorageError → String × String
  | .sizeInvalid value why =>
    ("StorageSizeInvalid",
      "spec.storage.size=" ++ Text.debug printable value.toList ++ " (" ++ why ++ ")")
  | .typeChanged fromKind toKind =>
    ("StorageImmutable", "spec.storage.type changed from " ++ fromKind ++ " to " ++ toKind)
  | .classChanged fromClass toClass =>
    ("StorageImmutable", "spec.storage.class changed from " ++ debugOption printable fromClass ++
      " to " ++ debugOption printable toClass)
  | .shrinkNotAllowed current desired =>
    ("StorageImmutable",
      "spec.storage.size " ++ current ++ " -> " ++ desired ++ " (shrink rejected)")
  | .jbodNeedsTwoVolumes n =>
    ("JbodNeedsTwoVolumes", "spec.storage.volumes has " ++ toString n ++
      " disk(s); Jbod needs >= 2 (use PersistentClaim for one)")
  | .jbodDuplicateVolumeId id =>
    ("JbodDuplicateVolumeId", "spec.storage.volumes has a duplicate id " ++ toString id)
  | .jbodVolumesImmutable =>
    ("StorageImmutable", "spec.storage.volumes is immutable after the StatefulSet is created")
  | .seccompLocalhostProfileMissing =>
    ("SeccompProfileInvalid",
      "spec.template.seccompProfile.localhostProfile is required when type is Localhost")
  | .seccompLocalhostProfileUnexpected =>
    ("SeccompProfileInvalid",
      "spec.template.seccompProfile.localhostProfile is set, but type is RuntimeDefault")
  | .seccompLocalhostProfileInvalid path =>
    ("SeccompProfileInvalid", "spec.template.seccompProfile.localhostProfile=" ++
      Text.debug printable path.toList ++ " must be a relative path without `..`")

end Messages

/-! ## The checks of the spec -/

def checkSize (size : String) : Except StorageError Unit :=
  match parseQuantity size with
  | .error why => .error (.sizeInvalid size why)
  | .ok _ => .ok ()

/-- Each id once, and a size for each disk. -/
def checkVolumes (seen : List Int) : List JbodVolume → Except StorageError Unit
  | [] => .ok ()
  | v :: volumes =>
    if v.id ∈ seen then .error (.jbodDuplicateVolumeId v.id)
    else do
      checkSize v.size
      checkVolumes (v.id :: seen) volumes

def validateStorage : Option Storage → Except StorageError Unit
  | some (.persistentClaim claim) => checkSize claim.size
  | some (.jbod spec) =>
    if spec.volumes.length < 2 then .error (.jbodNeedsTwoVolumes spec.volumes.length)
    else checkVolumes [] spec.volumes
  | none | some .ephemeral => .ok ()

def validateSeccompProfile (profile : SeccompProfile) : Except StorageError Unit :=
  match profile.profileType, profile.localhostProfile with
  | .runtimeDefault, none => .ok ()
  | .runtimeDefault, some _ => .error .seccompLocalhostProfileUnexpected
  | .localhost, none => .error .seccompLocalhostProfileMissing
  | .localhost, some path =>
    if path.toList = [] ∨ path.toList.head? = some '/' ∨
        (path.toList.splitOn '/').contains "..".toList then
      .error (.seccompLocalhostProfileInvalid path)
    else .ok ()

/-- The last checks of a pool: its storage and the profile of its template. -/
def checkStorage (printable : Char → Bool) (storage : Option Storage)
    (profile : Option SeccompProfile) (_ : KafkaNodePool) : Except (String × String) Unit :=
  (do validateStorage storage
      match profile with
      | some profile => validateSeccompProfile profile
      | none => pure ()).mapError (StorageError.condition printable)

/-! ## The claims of a StatefulSet -/

structure PersistentVolumeClaimSpec where
  accessModes : List String
  /-- `resources.requests`. -/
  requests : Option (BTreeMap String)
  storageClassName : Option String
  deriving DecidableEq

structure PersistentVolumeClaim where
  name : Option String
  labels : BTreeMap String := ∅
  spec : Option PersistentVolumeClaimSpec
  deriving DecidableEq

def pvcTemplate (name size : String) (className : Option String) (podLabels : BTreeMap String) :
    PersistentVolumeClaim where
  name := some name
  labels := podLabels
  spec := some {
    accessModes := ["ReadWriteOnce"]
    requests := some (BTreeMap.ofList [("storage", size)])
    storageClassName := className }

def volumeLe (a b : JbodVolume) : Prop := a.id ≤ b.id

instance (a b : JbodVolume) : Decidable (volumeLe a b) := inferInstanceAs (Decidable (_ ≤ _))

/-- The name of the claim of a disk. The first disk has the data. -/
def jbodMount (id : Int) (isPrimary : Bool) : String :=
  if isPrimary then "data" else "data-" ++ toString id

def jbodTemplates (podLabels : BTreeMap String) : List JbodVolume → List PersistentVolumeClaim
  | [] => []
  | primary :: extras =>
    pvcTemplate (jbodMount primary.id true) primary.size primary.className podLabels ::
      extras.map fun v => pvcTemplate (jbodMount v.id false) v.size v.className podLabels

/-- The claims of the data. -/
def dataTemplates (storage : Option Storage) (podLabels : BTreeMap String) :
    List PersistentVolumeClaim :=
  match storage with
  | none | some .ephemeral => []
  | some (.persistentClaim claim) => [pvcTemplate "data" claim.size claim.className podLabels]
  | some (.jbod spec) => jbodTemplates podLabels (spec.volumes.insertionSort volumeLe)

/-- The claim of a local tier that persists. -/
def tierTemplates (tier : Option TieredStorage) (podLabels : BTreeMap String) :
    List PersistentVolumeClaim :=
  if (tier.map (·.kind)) = some .local then
    match tier >>= (·.persistence) with
    | some p => [pvcTemplate "tier-storage" p.size p.className podLabels]
    | none => []
  else []

/-- The claim templates that are rendered for a pool and its parent. -/
def renderStorage (storage : Option Storage) (podLabels : BTreeMap String)
    (tier : Option TieredStorage) : List PersistentVolumeClaim :=
  dataTemplates storage podLabels ++ tierTemplates tier podLabels

/-! ## The check of a change -/

def storageKind : Option Storage → String
  | none | some .ephemeral => "Ephemeral"
  | some (.persistentClaim _) => "PersistentClaim"
  | some (.jbod _) => "Jbod"

def observedStorageKind (templates : List PersistentVolumeClaim) : String :=
  match templates.length with
  | 0 => "Ephemeral"
  | 1 => "PersistentClaim"
  | _ => "Jbod"

abbrev SizeClass := String × Option String

def sizeClassFromPvc (pvc : PersistentVolumeClaim) : SizeClass :=
  match pvc.spec with
  | none => ("", none)
  | some spec => ((spec.requests >>= (·["storage"]?)).getD "", spec.storageClassName)

/-- The bytes of a quantity, 0 when it is none. -/
def quantityBytes (size : String) : Nat :=
  match parseQuantity size with
  | .ok n => n
  | .error _ => 0

def checkClassAndShrink (desired observed : SizeClass) : Except StorageError Unit :=
  if desired.2 ≠ observed.2 then .error (.classChanged observed.2 desired.2)
  else if quantityBytes desired.1 < quantityBytes observed.1 then
    .error (.shrinkNotAllowed observed.1 desired.1)
  else .ok ()

/-- The disk that a claim is of: the first one, or one with an id. -/
inductive DiskName where
  | primary
  | extra (id : Int)
  deriving DecidableEq, Repr

def diskName? (pvc : PersistentVolumeClaim) : Option DiskName :=
  let name := pvc.name.getD ""
  if name = "data" then some .primary
  else (stripPre "data-" name >>= Decimal.parseI32).map .extra

/-- The size and the class that are observed for a disk. A later claim replaces an earlier
    one. -/
def observedDisk (observed : List PersistentVolumeClaim) (disk : DiskName) : Option SizeClass :=
  (observed.reverse.find? fun pvc => diskName? pvc = some disk).map sizeClassFromPvc

def observedExtraIds (observed : List PersistentVolumeClaim) : List Int :=
  (observed.filterMap diskName?).filterMap fun
    | .primary => none
    | .extra id => some id

/-- Two lists with the same elements. -/
def sameIds (a b : List Int) : Bool := a.all (b.contains ·) && b.all (a.contains ·)

/-- A disk that is observed keeps its class and does not shrink. -/
def checkDisk (observed : List PersistentVolumeClaim) (disk : DiskName) (v : JbodVolume) :
    Except StorageError Unit :=
  match observedDisk observed disk with
  | some live => checkClassAndShrink (v.size, v.className) live
  | none => .ok ()

def checkExtras (observed : List PersistentVolumeClaim) : List JbodVolume → Except StorageError Unit
  | [] => .ok ()
  | v :: extras => do
    checkDisk observed (.extra v.id) v
    checkExtras observed extras

def validateJbodChange (desired : JbodSpec) (observed : List PersistentVolumeClaim) :
    Except StorageError Unit :=
  match desired.volumes.insertionSort volumeLe with
  | [] => .ok ()
  | primary :: extras => do
    if !sameIds (extras.map (·.id)) (observedExtraIds observed) then throw .jbodVolumesImmutable
    checkDisk observed .primary primary
    checkExtras observed extras

/-- The change from the claims of the live StatefulSet to the spec. -/
def validateStorageChange (desired : Option Storage)
    (observed : Option (List PersistentVolumeClaim)) : Except StorageError Unit :=
  match observed with
  | none => .ok ()
  | some observed =>
    if storageKind desired ≠ observedStorageKind observed then
      .error (.typeChanged (observedStorageKind observed) (storageKind desired))
    else
      match desired with
      | some (.persistentClaim claim) =>
        match observed with
        | [] => .ok ()
        | pvc :: _ => checkClassAndShrink (claim.size, claim.className) (sizeClassFromPvc pvc)
      | some (.jbod spec) => validateJbodChange spec observed
      | none | some .ephemeral => .ok ()

end NodePool
