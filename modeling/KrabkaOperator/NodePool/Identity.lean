-- SUMMARY: Node ids and roles of a pool: what its spec asks for, what its StatefulSet and pods show, and the checks of the node ranges of a cluster.
import KrabkaOperator.Base.Checks
import KrabkaOperator.Base.Decimal
import KrabkaOperator.Base.Text
import KrabkaOperator.Crd.NodePool
import KrabkaOperator.Kube.Objects
import Mathlib.Data.List.Sort

/-!
# Identity of a pool

The nodes of a pool have consecutive ids. The ids and the roles of running nodes
are read from the StatefulSet and from the pods, with the spec as a fallback. A
node of a pool that shrinks keeps its id until its pod is gone.
-/

namespace NodePool

open Kube Crd

def maxNodeId : Int := 999999

/-- The largest `i32`. -/
def maxI32 : Int := 2 ^ 31 - 1

def nodeIdStartAnnotation : String := "krabka.io/node-id-start"
def processRolesAnnotation : String := "krabka.io/process-roles"

/-- `a + b` of two `i32`s, clamped. -/
def saturatingAdd (a b : Int) : Int := max (-(2 ^ 31)) (min maxI32 (a + b))

/-- `a + b` of two `i32`s, when it is one. -/
def checkedAdd (a b : Int) : Option Int :=
  if -(2 ^ 31) ≤ a + b ∧ a + b ≤ maxI32 then some (a + b) else none

def IsI32 (i : Int) : Prop := -(2 ^ 31) ≤ i ∧ i ≤ maxI32

instance (i : Int) : Decidable (IsI32 i) := inferInstanceAs (Decidable (_ ∧ _))

theorem checkedAdd_eq_some {a b c : Int} : checkedAdd a b = some c ↔ a + b = c ∧ IsI32 c := by
  unfold checkedAdd IsI32
  split <;> grind

/-! ## Roles -/

/-- The bits of a role mask. -/
structure RoleMask where
  broker : Bool
  controller : Bool
  deriving DecidableEq, Repr

def roleMask (roles : List NodeRole) : RoleMask := ⟨.broker ∈ roles, .controller ∈ roles⟩

def RoleMask.nonempty (m : RoleMask) : Option RoleMask :=
  if m.broker || m.controller then some m else none

def RoleMask.name (m : RoleMask) : String :=
  match m.broker, m.controller with
  | true, false => "broker"
  | false, true => "controller"
  | true, true => "broker,controller"
  | false, false => "none"

def parseRoleMask (value : String) : Option RoleMask :=
  let parts := (value.toList.splitOn ',').map Text.trim
  RoleMask.nonempty ⟨parts.contains "broker".toList, parts.contains "controller".toList⟩

def roleMaskFromLabels (labels : BTreeMap String) : Option RoleMask :=
  RoleMask.nonempty ⟨labels["krabka.io/broker-role"]? = some "true",
    labels["krabka.io/controller-role"]? = some "true"⟩

def envValue? (containers : List Container) (name : String) : Option EnvVar :=
  (containers.flatMap (·.env)).find? (·.name = name)

/-- Pods of older versions have no roles variable: they have both roles. -/
def roleMaskFromPodSpec (spec : PodSpec) : Option RoleMask :=
  match envValue? spec.containers "KRABKA_PROCESS_ROLES" >>= (·.value) with
  | some value => parseRoleMask value
  | none => some ⟨true, true⟩

def nodeIdStartFromPodSpec (spec : PodSpec) : Option Int :=
  envValue? spec.initContainers "NODE_ID_START" >>= (·.value) >>= Decimal.parseI32

/-! ## What is observed -/

abbrev PoolIdentity := Option Int × Option RoleMask

def observedStatefulsetIdentity (sts : StatefulSet) : PoolIdentity :=
  let annotation (key : String) : Option String :=
    sts.annotations[key]?.or (sts.spec >>= fun spec => spec.templateAnnotations[key]?)
  let podSpec := sts.spec >>= (·.templateSpec)
  (( annotation nodeIdStartAnnotation >>= Decimal.parseI32).or (podSpec >>= nodeIdStartFromPodSpec),
    (( annotation processRolesAnnotation >>= parseRoleMask).or
      (sts.spec >>= fun spec => roleMaskFromLabels spec.templateLabels)).or
        (podSpec >>= roleMaskFromPodSpec))

def observedPodIdentity (pod : Pod) : PoolIdentity :=
  ((pod.annotations[ nodeIdStartAnnotation]? >>= Decimal.parseI32).or
      (pod.spec >>= nodeIdStartFromPodSpec),
    ((pod.annotations[ processRolesAnnotation]? >>= parseRoleMask).or
      (roleMaskFromLabels pod.labels)).or (pod.spec >>= roleMaskFromPodSpec))

def observedStatefulsetReplicas (sts : StatefulSet) : Int :=
  let replicas := (sts.spec >>= (·.replicas)).getD 0
  let replicas := match sts.status with
    | none => replicas
    | some status => [status.replicas, status.availableReplicas.getD 0,
        status.currentReplicas.getD 0, status.readyReplicas.getD 0,
        status.updatedReplicas.getD 0].foldl max replicas
  max replicas 0

/-- One more than the largest ordinal among the names. -/
def ordinalBound (ordinals : List String) : Int :=
  (((ordinals.filterMap Decimal.parseI32).filterMap (checkedAdd · 1)).max?).getD 0

/-- The text after a fixed beginning. -/
def stripPre (pre s : String) : Option String :=
  if pre.toList.isPrefixOf s.toList then some (String.ofList (s.toList.drop pre.toList.length))
  else none

theorem stripPre_append (pre s : String) : stripPre pre (pre ++ s) = some s := by
  simp [stripPre, String.toList_append]

/-- The text after the last dash. -/
def afterLastDash (s : String) : Option String :=
  if '-' ∈ s.toList then
    some (String.ofList (s.toList.reverse.takeWhile (· ≠ '-')).reverse)
  else none

def observedPoolPodReplicas (pods : List Pod) (statefulsetName : String) : Int :=
  ordinalBound (pods.filterMap fun pod => stripPre (statefulsetName ++ "-") pod.name)

def poolLabelsMatch (labels : BTreeMap String) (pool : String) : Bool :=
  labels["krabka.io/pool"]? = some pool

def observedPoolPodsReplicas (pool : String) (pods : List Pod) : Int :=
  ordinalBound ((pods.filter fun pod => poolLabelsMatch pod.labels pool).filterMap
    fun pod => afterLastDash pod.name)

def observedPoolReplicas (pool : String) (statefulsets : List StatefulSet) : Int :=
  (((statefulsets.filter fun sts => poolLabelsMatch sts.labels pool).map
    observedStatefulsetReplicas).max?).getD 0

def observedPoolIdentity (pool : String) (statefulsets : List StatefulSet) (pods : List Pod) :
    PoolIdentity :=
  let fromSts := ((statefulsets.find? fun sts => poolLabelsMatch sts.labels pool).map
    observedStatefulsetIdentity).getD (none, none)
  let fromPod := ((pods.find? fun pod => poolLabelsMatch pod.labels pool).map
    observedPodIdentity).getD (none, none)
  (fromSts.1.or fromPod.1, fromSts.2.or fromPod.2)

/-! ## Validation -/

inductive PoolValidationError where
  | rolesEmpty
  | duplicateRole (role : NodeRole)
  | replicasInvalid (replicas : Int)
  | nodeIdOutOfRange (start : Int)
  | nodeIdRangeOutOfRange (pool : String) (start replicas : Int)
  | nodeIdRangeOverlap (first second : String)
  | nodeIdStartChanged (pool : String) (observed desired : Int)
  | rolesChanged (pool observed desired : String)
  | noControllerNodes
  /-- One of the checks of the storage and of the pod template. -/
  | storage (reason message : String)
  deriving DecidableEq, Repr

/-- The last node id of a pool with the given number of replicas. -/
def nodeIdEndForReplicas (pool : KafkaNodePool) (replicas : Int) : Except PoolValidationError Int :=
  match checkedAdd replicas (-1) >>= checkedAdd pool.spec.nodeIdStart with
  | some last =>
    if last ≤ maxNodeId then .ok last
    else .error (.nodeIdRangeOutOfRange pool.name pool.spec.nodeIdStart replicas)
  | none => .error (.nodeIdRangeOutOfRange pool.name pool.spec.nodeIdStart replicas)

/-- The first role that has been seen before. -/
def duplicateRole? (seen : List NodeRole) : List NodeRole → Option NodeRole
  | [] => none
  | role :: roles => if role ∈ seen then some role else duplicateRole? (role :: seen) roles

/-- The checks of a spec. `storageCheck` stands for those of the storage and of the pod
    template. -/
def validate (storageCheck : KafkaNodePool → Except (String × String) Unit) (pool : KafkaNodePool) :
    Except PoolValidationError Unit := do
  if pool.spec.roles = [] then throw .rolesEmpty
  match duplicateRole? [] pool.spec.roles with
  | some role => throw (.duplicateRole role)
  | none => pure ()
  if pool.spec.replicas < 1 then throw (.replicasInvalid pool.spec.replicas)
  if ¬ (0 ≤ pool.spec.nodeIdStart ∧ pool.spec.nodeIdStart ≤ maxNodeId) then
    throw (.nodeIdOutOfRange pool.spec.nodeIdStart)
  let _ ← nodeIdEndForReplicas pool pool.spec.replicas
  match storageCheck pool with
  | .error (reason, message) => throw (.storage reason message)
  | .ok _ => pure ()

/-- What the checks of a spec say about its node ids. -/
theorem validate_nodes {storageCheck : KafkaNodePool → Except (String × String) Unit}
    {pool : KafkaNodePool} (h : validate storageCheck pool = .ok ()) :
    1 ≤ pool.spec.replicas ∧ 0 ≤ pool.spec.nodeIdStart ∧ pool.spec.nodeIdStart ≤ maxNodeId := by
  unfold validate at h
  obtain ⟨-, h⟩ := Checks.guard_eq_ok.mp h
  cases hrole : duplicateRole? [] pool.spec.roles with
  | some role =>
    rw [hrole] at h
    cases h
  | none =>
    rw [hrole] at h
    obtain ⟨hreplicas, h⟩ := Checks.guard_eq_ok.mp h
    obtain ⟨hstart, -⟩ := Checks.guard_eq_ok.mp h
    exact ⟨not_lt.mp hreplicas, not_not.mp hstart⟩

theorem storageCheck_of_validate {storageCheck : KafkaNodePool → Except (String × String) Unit}
    {pool : KafkaNodePool} (h : validate storageCheck pool = .ok ()) :
    storageCheck pool = .ok () := by
  unfold validate at h
  obtain ⟨-, h⟩ := Checks.guard_eq_ok.mp h
  cases hrole : duplicateRole? [] pool.spec.roles with
  | some role =>
    rw [hrole] at h
    cases h
  | none =>
    rw [hrole] at h
    obtain ⟨-, h⟩ := Checks.guard_eq_ok.mp h
    obtain ⟨-, h⟩ := Checks.guard_eq_ok.mp h
    obtain ⟨last, -, h⟩ := Checks.bind_eq_ok.mp h
    cases hcheck : storageCheck pool with
    | error e =>
      rw [hcheck] at h
      cases h
    | ok u => rfl

structure NodeRange where
  start : Int
  last : Int
  pool : String
  deriving DecidableEq, Repr

/-- The range that a pool occupies, with the nodes that still run. -/
def occupiedRange (storageCheck : KafkaNodePool → Except (String × String) Unit)
    (statefulsets : List StatefulSet) (pods : List Pod) (pool : KafkaNodePool) :
    Except PoolValidationError NodeRange := do
  validate storageCheck pool
  let (start, roles) := observedPoolIdentity pool.name statefulsets pods
  match start with
  | some observed =>
    if observed ≠ pool.spec.nodeIdStart then
      throw (.nodeIdStartChanged pool.name observed pool.spec.nodeIdStart)
  | none => pure ()
  match roles with
  | some observed =>
    if observed ≠ roleMask pool.spec.roles then
      throw (.rolesChanged pool.name observed.name (roleMask pool.spec.roles).name)
  | none => pure ()
  let replicas := max (max pool.spec.replicas (observedPoolReplicas pool.name statefulsets))
    (observedPoolPodsReplicas pool.name pods)
  let last ← nodeIdEndForReplicas pool replicas
  pure ⟨pool.spec.nodeIdStart, last, pool.name⟩

def rangeLe (a b : NodeRange) : Prop :=
  a.start < b.start ∨ (a.start = b.start ∧ (compareBytes a.pool b.pool).isLE = true)

instance (a b : NodeRange) : Decidable (rangeLe a b) := inferInstanceAs (Decidable (_ ∨ _))

/-- The first two neighbours that overlap. -/
def overlap? : List NodeRange → Option (NodeRange × NodeRange)
  | a :: b :: rest => if b.start ≤ a.last then some (a, b) else overlap? (b :: rest)
  | _ => none

/-- The checks of all pools of a cluster. -/
def validateTopology (storageCheck : KafkaNodePool → Except (String × String) Unit)
    (pools : List KafkaNodePool) (statefulsets : List StatefulSet) (pods : List Pod) :
    Except PoolValidationError Unit := do
  if pools = [] then return ()
  let ranges ← pools.mapM (occupiedRange storageCheck statefulsets pods)
  if !pools.any fun pool => .controller ∈ pool.spec.roles then throw .noControllerNodes
  match overlap? (ranges.insertionSort rangeLe) with
  | some (a, b) => throw (.nodeIdRangeOverlap a.pool b.pool)
  | none => pure ()

def poolIsAvailable (pool : KafkaNodePool) : Bool :=
  match pool.status with
  | none => false
  | some status => decide (pool.spec.replicas ≤ status.readyReplicas.getD 0) &&
      status.conditions.any fun c => c.type = "Ready" && c.status = "True"

end NodePool
